import EcLink.Proofs.BoardShift

/-!
# It does not matter who is told

Links, channels and hosts tell their console what happens, on nearly every way that they can take,
and never ask it anything. So a console that stays silent, one that writes on a device with no room
left and one that keeps every line have the same course of events before them. **On two consoles,
every history is the same**: the same replies or no end in either, the same board and all that has
passed on it, the same states of the link, the channel and the peripherals. The consoles have even
been told the same, and what each of them makes of it is its own affair.
-/

namespace EcLink

/-- Two consoles have been told the same since they were these two. -/
def ToldAlike {κ μ : Type} [Console κ] [Console μ] (heard : κ) (other : μ) (first : κ)
    (second : μ) : Prop :=
  ∃ notices, first = Console.tellAll notices heard ∧ second = Console.tellAll notices other

theorem ToldAlike.tell {κ μ : Type} [Console κ] [Console μ] {heard first : κ} {other second : μ}
    (htold : ToldAlike heard other first second) (notice : Notice) :
    ToldAlike heard other (Console.tell notice first) (Console.tell notice second) := by
  obtain ⟨notices, rfl, rfl⟩ := htold
  refine ⟨notices ++ [notice], ?_, ?_⟩
  · rw [Console.tellAll_append]
    rfl
  · rw [Console.tellAll_append]
    rfl

/-- All is the same but the consoles, and these have been told the same. -/
def Likeness.toldAlike {κ μ : Type} [Console κ] [Console μ] (σ : Type) (heard : κ) (other : μ) :
    Likeness σ σ κ μ where
  board first second := second = first
  console := ToldAlike heard other
  word := Eq

theorem Likeness.toldAlike_lasts {σ κ μ : Type} [Board σ] [Console κ] [Console μ] (heard : κ)
    (other : μ) : (Likeness.toldAlike σ heard other).Lasts 0 :=
  { ClockShift.lasts (κ := κ) (clockShift_id σ) with
    tell notice _ _ htold := htold.tell notice }

/-! ### On another console -/

namespace Link

variable {σ κ μ : Type}

/-- The same link with another console. -/
def onConsole (console : μ) (link : Link σ κ) : Link σ μ := { link with console }

/-- The same but for their consoles, and these have been told the same since they were these. -/
def SameButTold [Console κ] [Console μ] (heard : κ) (other : μ) (first : Link σ κ)
    (second : Link σ μ) : Prop :=
  second = first.onConsole second.console ∧ ToldAlike heard other first.console second.console

variable [Console κ] [Console μ]

theorem like_onConsole (link : Link σ κ) (console : μ) :
    Like (.toldAlike σ link.console console) Eq link (link.onConsole console) where
  board := rfl
  console := ⟨[], rfl, rfl⟩
  config := rfl
  transaction := rfl
  dropped := rfl
  signalFailures := rfl
  lastStatus := lastStatus_like (fun _ => rfl) link.diagnostics.lastStatus

theorem sameButTold_of_like {heard : κ} {other : μ} (first : Link σ κ) (second : Link σ μ)
    (hlike : Like (.toldAlike σ heard other) Eq first second) :
    first.SameButTold heard other second := by
  refine ⟨?_, hlike.console⟩
  have hdiagnostics := hlike.diagnostics_eq rfl
  rcases second with ⟨board, console, config, transaction, diagnostics⟩
  obtain ⟨hboard, -, hconfig, htransaction, -⟩ := hlike
  cases hboard
  cases hconfig
  cases htransaction
  cases hdiagnostics
  rfl

end Link

namespace Channel

variable {σ κ μ : Type}

def onConsole (console : μ) (channel : Channel σ κ) : Channel σ μ :=
  { channel with link := channel.link.onConsole console }

def SameButTold [Console κ] [Console μ] (heard : κ) (other : μ) (first : Channel σ κ)
    (second : Channel σ μ) : Prop :=
  second = first.onConsole second.link.console ∧
    ToldAlike heard other first.link.console second.link.console

variable [Console κ] [Console μ]

theorem like_onConsole (channel : Channel σ κ) (console : μ) :
    Like (.toldAlike σ channel.link.console console) Eq channel (channel.onConsole console) :=
  ⟨channel.link.like_onConsole console, rfl, rfl⟩

theorem sameButTold_of_like {heard : κ} {other : μ} (first : Channel σ κ) (second : Channel σ μ)
    (hlike : Like (.toldAlike σ heard other) Eq first second) :
    first.SameButTold heard other second := by
  obtain ⟨hlink, hresponse, hpending⟩ := hlike
  obtain ⟨hsame, htold⟩ := Link.sameButTold_of_like first.link second.link hlink
  refine ⟨?_, htold⟩
  rcases second with ⟨link, response, pending⟩
  cases hresponse
  cases hpending
  exact congrArg (fun link => Channel.mk link _ _) hsame

end Channel

namespace Host

variable {σ κ μ π δ : Type}

def onConsole (console : μ) (host : Host σ κ π δ) : Host σ μ π δ :=
  { host with channel := host.channel.onConsole console }

def SameButTold [Console κ] [Console μ] (heard : κ) (other : μ) (first : Host σ κ π δ)
    (second : Host σ μ π δ) : Prop :=
  second = first.onConsole second.channel.link.console ∧
    ToldAlike heard other first.channel.link.console second.channel.link.console

variable [Console κ] [Console μ]

theorem like_onConsole (host : Host σ κ π δ) (console : μ) :
    Like (.toldAlike σ host.channel.link.console console) Eq host (host.onConsole console) :=
  ⟨host.channel.like_onConsole console, rfl, rfl⟩

theorem sameButTold_of_like {heard : κ} {other : μ} (first : Host σ κ π δ) (second : Host σ μ π δ)
    (hlike : Like (.toldAlike σ heard other) Eq first second) :
    first.SameButTold heard other second := by
  obtain ⟨hchannel, hdirectory, hdevices⟩ := hlike
  obtain ⟨hsame, htold⟩ := Channel.sameButTold_of_like first.channel second.channel hchannel
  refine ⟨?_, htold⟩
  rcases second with ⟨channel, directory, devices⟩
  cases hdirectory
  cases hdevices
  exact congrArg (fun channel => Host.mk channel _ _) hsame

end Host

/-- **It does not matter who is told.** Whatever is asked of a link, a channel or a host, on any
    board: with another console in place of its own, it gives the same replies, or fails to come to
    an end in the same place, and all that is left in the end is the same but the console. The two
    consoles have been told the same notices in the same order. This covers histories that begin
    with a new link, channel or host, and every point of a history, as the end of its beginning. -/
theorem console_irrelevant {σ κ μ π δ : Type} [Board σ] [Console κ] [Console μ] [Peripherals π δ]
    (polls : Nat) (console : μ) :
    (∀ (operations : List LinkOperation) (link : Link σ κ),
      Option.Rel (InStep (Link.SameButTold link.console console))
        (performAll (Link.perform polls) operations link)
        (performAll (Link.perform polls) operations (link.onConsole console))) ∧
    (∀ (operations : List ChannelOperation) (channel : Channel σ κ),
      Option.Rel (InStep (Channel.SameButTold channel.link.console console))
        (performAll (Channel.perform polls) operations channel)
        (performAll (Channel.perform polls) operations (channel.onConsole console))) ∧
    ∀ (operations : List (HostOperation δ)) (host : Host σ κ π δ),
      Option.Rel (InStep (Host.SameButTold host.channel.link.console console))
        (performAll (Host.perform polls) operations host)
        (performAll (Host.perform polls) operations (host.onConsole console)) := by
  refine ⟨?_, ?_, ?_⟩
  · intro operations link
    have hlasts := Likeness.toldAlike_lasts (σ := σ) link.console console
    apply step_mono _ Link.sameButTold_of_like
    apply performAll_like _ operations (link.like_onConsole console)
    intro operation first second hlike
    exact Link.perform_like hlasts respected_eq polls operation hlike
  · intro operations channel
    have hlasts := Likeness.toldAlike_lasts (σ := σ) channel.link.console console
    apply step_mono _ Channel.sameButTold_of_like
    apply performAll_like _ operations (channel.like_onConsole console)
    intro operation first second hlike
    exact Channel.perform_like hlasts respected_eq polls operation hlike
  · intro operations host
    have hlasts := Likeness.toldAlike_lasts (σ := σ) host.channel.link.console console
    apply step_mono _ Host.sameButTold_of_like
    apply performAll_like _ operations (host.like_onConsole console)
    intro operation first second hlike
    exact Host.perform_like hlasts respected_eq polls operation hlike

end EcLink
