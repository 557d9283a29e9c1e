import EcLink.Proofs.Lockstep

/-!
# One board in place of another

Of its board a link only learns what the accesses answer, and of the clock only how much time goes
by between two looks at it. `ClockShift` says of two boards that they answer alike, but for the
instants that their clocks show, which lie the same number of ticks apart all the time. **Everything
that can be asked of a link, a channel or a host then comes to the same on both.**
-/

namespace EcLink

/-- A map between boards that changes nothing but the instants shown, and these by the same number
    of ticks all the time. -/
structure ClockShift {σ τ : Type} [Board σ] [Board τ] (ticks : UInt32) (shift : σ → τ) : Prop where
  poll : ∀ board, Registers.poll (shift board) = (Registers.poll board).map id shift
  sample : ∀ board, Registers.sample (shift board) = (Registers.sample board).map id shift
  send : ∀ byte board, Registers.send byte (shift board) = shift (Registers.send byte board)
  drive : ∀ level board, Board.drive level (shift board) = (Board.drive level board).map id shift
  pause : ∀ nanos board, Board.pause nanos (shift board) = shift (Board.pause nanos board)
  now : ∀ board, Board.now (shift board) = (Board.now board).map (Instant.later ticks) shift

/-- A board is shifted by nothing when it is left as it is. -/
theorem clockShift_id (σ : Type) [Board σ] : ClockShift 0 (id : σ → σ) where
  poll _ := rfl
  sample _ := rfl
  send _ _ := rfl
  drive _ _ := rfl
  pause _ _ := rfl
  now _ := Prod.ext (Instant.later_zero _).symm rfl

/-- The second board is the first one shifted, and all else is the same. -/
def Likeness.shifted {σ τ : Type} (shift : σ → τ) (κ : Type) : Likeness σ τ κ κ where
  board first second := second = shift first
  console := Eq
  word := Eq

theorem ClockShift.lasts {σ τ κ : Type} [Board σ] [Board τ] [Console κ] {ticks : UInt32}
    {shift : σ → τ} (hshift : ClockShift ticks shift) :
    (Likeness.shifted shift κ).Lasts ticks where
  ready hsame := congrArg Status.isReady hsame.symm
  same hsame _ := hsame.symm
  poll := by
    rintro board _ rfl
    exact ⟨(congrArg Prod.fst (hshift.poll board)).symm, congrArg Prod.snd (hshift.poll board)⟩
  sample := by
    rintro board _ rfl
    exact Prod.mk.inj (hshift.sample board)
  send := by
    rintro byte board _ rfl
    exact hshift.send byte board
  drive := by
    rintro level board _ rfl
    exact Prod.mk.inj (hshift.drive level board)
  pause := by
    rintro nanos board _ rfl
    exact hshift.pause nanos board
  now := by
    rintro board _ rfl
    exact Prod.mk.inj (hshift.now board)
  tell := by
    rintro notice console _ rfl
    rfl

/-! ### Shifted links, channels and hosts -/

namespace Link

variable {σ τ κ : Type}

/-- The same link on another board. -/
def onBoard (shift : σ → τ) (link : Link σ κ) : Link τ κ :=
  { link with board := shift link.board }

theorem like_onBoard (shift : σ → τ) (link : Link σ κ) :
    Like (.shifted shift κ) Eq link (link.onBoard shift) where
  board := rfl
  console := rfl
  config := rfl
  transaction := rfl
  dropped := rfl
  signalFailures := rfl
  lastStatus := lastStatus_like (fun _ => rfl) link.diagnostics.lastStatus

theorem onBoard_of_like {shift : σ → τ} (first : Link σ κ) (second : Link τ κ)
    (hlike : Like (.shifted shift κ) Eq first second) : second = first.onBoard shift := by
  have hdiagnostics := hlike.diagnostics_eq rfl
  rcases second with ⟨board, console, config, transaction, diagnostics⟩
  obtain ⟨hboard, hconsole, hconfig, htransaction, -⟩ := hlike
  cases hboard
  cases hconsole
  cases hconfig
  cases htransaction
  cases hdiagnostics
  rfl

theorem perform_onBoard [Board σ] [Board τ] [Console κ] {ticks : UInt32} {shift : σ → τ}
    (hshift : ClockShift ticks shift) (polls : Nat) (link : Link σ κ) (operation : LinkOperation) :
    (link.onBoard shift).perform polls operation =
      (link.perform polls operation).map (Prod.map id (onBoard shift)) :=
  map_of_step (perform_like hshift.lasts respected_eq polls operation (like_onBoard shift link))
    onBoard_of_like

end Link

namespace Channel

variable {σ τ κ : Type}

def onBoard (shift : σ → τ) (channel : Channel σ κ) : Channel τ κ :=
  { channel with link := channel.link.onBoard shift }

theorem like_onBoard (shift : σ → τ) (channel : Channel σ κ) :
    Like (.shifted shift κ) Eq channel (channel.onBoard shift) :=
  ⟨channel.link.like_onBoard shift, rfl, rfl⟩

theorem onBoard_of_like {shift : σ → τ} (first : Channel σ κ) (second : Channel τ κ)
    (hlike : Like (.shifted shift κ) Eq first second) : second = first.onBoard shift := by
  rcases second with ⟨link, response, pending⟩
  obtain ⟨hlink, hresponse, hpending⟩ := hlike
  cases Link.onBoard_of_like first.link link hlink
  cases hresponse
  cases hpending
  rfl

theorem perform_onBoard [Board σ] [Board τ] [Console κ] {ticks : UInt32} {shift : σ → τ}
    (hshift : ClockShift ticks shift) (polls : Nat) (channel : Channel σ κ)
    (operation : ChannelOperation) :
    (channel.onBoard shift).perform polls operation =
      (channel.perform polls operation).map (Prod.map id (onBoard shift)) :=
  map_of_step (perform_like hshift.lasts respected_eq polls operation (like_onBoard shift channel))
    onBoard_of_like

end Channel

namespace Host

variable {σ τ κ π δ : Type}

def onBoard (shift : σ → τ) (host : Host σ κ π δ) : Host τ κ π δ :=
  { host with channel := host.channel.onBoard shift }

theorem like_onBoard (shift : σ → τ) (host : Host σ κ π δ) :
    Like (.shifted shift κ) Eq host (host.onBoard shift) :=
  ⟨host.channel.like_onBoard shift, rfl, rfl⟩

theorem onBoard_of_like {shift : σ → τ} (first : Host σ κ π δ) (second : Host τ κ π δ)
    (hlike : Like (.shifted shift κ) Eq first second) : second = first.onBoard shift := by
  rcases second with ⟨channel, directory, devices⟩
  obtain ⟨hchannel, hdirectory, hdevices⟩ := hlike
  cases Channel.onBoard_of_like first.channel channel hchannel
  cases hdirectory
  cases hdevices
  rfl

theorem perform_onBoard [Board σ] [Board τ] [Console κ] [Peripherals π δ] {ticks : UInt32}
    {shift : σ → τ} (hshift : ClockShift ticks shift) (polls : Nat) (host : Host σ κ π δ)
    (operation : HostOperation δ) :
    (host.onBoard shift).perform polls operation =
      (host.perform polls operation).map (Prod.map id (onBoard shift)) :=
  map_of_step (perform_like hshift.lasts respected_eq polls operation (like_onBoard shift host))
    onBoard_of_like

end Host

end EcLink
