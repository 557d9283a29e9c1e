import EcLink.Command

/-!
# Link configuration

The timing and retry policy of one link. A configuration is assembled by applying settings to
the default one, in order, so a later setting of the same field wins. **The number of attempts
is at least one however it is set here**; only a field update on the record itself can make it
zero, and a request then fails without touching the bus.
-/

namespace EcLink

/-- How one link talks to its controller. -/
structure Config where
  /-- Slave address in its eight-bit wire form, as the controller sends it. -/
  address : UInt8 := 0x8a
  settleMillis : UInt32 := 20
  timeoutMillis : UInt32 := 600
  pollMicros : UInt32 := 100
  maxAttempts : UInt8 := 10
  maxEventReads : UInt8 := 8
  globalEvents : Bool := true
  eventReporting : UInt32 := EventSource.lidSwitch.mask ||| EventSource.powerButton.mask
  deriving DecidableEq, Repr

inductive Setting
  | address (value : UInt8)
  | settleMillis (value : UInt32)
  | timeoutMillis (value : UInt32)
  | pollMicros (value : UInt32)
  | maxAttempts (value : UInt8)
  | maxEventReads (value : UInt8)
  | globalEvents (value : Bool)
  | eventReporting (value : UInt32)
  deriving DecidableEq, Repr

namespace Config

def apply (config : Config) : Setting → Config
  | .address value => { config with address := value }
  | .settleMillis value => { config with settleMillis := value }
  | .timeoutMillis value => { config with timeoutMillis := value }
  | .pollMicros value => { config with pollMicros := value }
  | .maxAttempts value => { config with maxAttempts := max value 1 }
  | .maxEventReads value => { config with maxEventReads := value }
  | .globalEvents value => { config with globalEvents := value }
  | .eventReporting value => { config with eventReporting := value }

def ofSettings (settings : List Setting) : Config := settings.foldl apply {}

/-- No list of settings leaves a request without an attempt. -/
theorem maxAttempts_ofSettings_pos (settings : List Setting) :
    1 ≤ (ofSettings settings).maxAttempts := by
  suffices hkept : ∀ config : Config, 1 ≤ config.maxAttempts →
      1 ≤ (settings.foldl apply config).maxAttempts from hkept {} (by decide)
  induction settings with
  | nil => exact fun _ hpositive => hpositive
  | cons setting settings ih =>
      intro config hpositive
      refine ih _ ?_
      cases setting with
      | maxAttempts value =>
          show 1 ≤ max value 1
          simp only [max]
          split <;> rename_i hsmall
          · exact UInt8.le_refl 1
          · exact UInt8.le_of_lt (UInt8.not_le.mp hsmall)
      | _ => exact hpositive

end Config

end EcLink
