import EcLink.Proofs.StartUp

/-!
# Two runs in lockstep

Two links may sit on different boards, tell different consoles and have different transactions in
flight, and yet do the same. A `Likeness` says what their boards and consoles have in common, and
`Likeness.Lasts` that no access to a board and nothing that is told to a console puts an end to it;
`Respected` says as much of what their transactions have in common. **Two links that are alike then
go through every transaction in lockstep**, with the same outcome and alike again, or neither comes
to an end. So do the channels and hosts around them, in everything that can be asked of them. What
two runs do not depend on is thus a matter of single accesses and single reactions.
-/

namespace EcLink

namespace Instant

/-- So many ticks later, on a counter that wraps. -/
def later (ticks : UInt32) (instant : Instant) : Instant := ⟨instant.ticks + ticks⟩

theorem later_zero (instant : Instant) : instant.later 0 = instant := by
  simp [later]

theorem since_later (ticks : UInt32) (now start : Instant) :
    (now.later ticks).since (start.later ticks) = now.since start := by
  have hgap : now.ticks + ticks - (start.ticks + ticks) = now.ticks - start.ticks := by grind
  simp only [since, later, hgap]

end Instant

/-! ### Alike -/

/-- The same answer, and states that are related. -/
def InStep {α S T : Type} (R : S → T → Prop) (first : α × S) (second : α × T) : Prop :=
  second.1 = first.1 ∧ R first.2 second.2

/-- What two boards have in common, what two consoles have in common, and which status words may
    stand for each other. -/
structure Likeness (σ τ κ μ : Type) where
  board : σ → τ → Prop
  console : κ → μ → Prop
  word : Status → Status → Prop

/-- Nothing that a link does puts an end to the likeness, or lets it see a difference: words differ
    only where they are not ready, and clocks by the same number of ticks all the time. -/
structure Likeness.Lasts {σ τ κ μ : Type} [Board σ] [Board τ] [Console κ] [Console μ]
    (likeness : Likeness σ τ κ μ) (ticks : UInt32) : Prop where
  ready : ∀ {first second : Status}, likeness.word first second → second.isReady = first.isReady
  same : ∀ {first second : Status}, likeness.word first second → first.isReady = true →
    second = first
  poll : ∀ {first : σ} {second : τ}, likeness.board first second →
    likeness.word (Registers.poll first).1 (Registers.poll second).1 ∧
      likeness.board (Registers.poll first).2 (Registers.poll second).2
  sample : ∀ {first : σ} {second : τ}, likeness.board first second →
    InStep likeness.board (Registers.sample first) (Registers.sample second)
  send : ∀ (byte : UInt8) {first : σ} {second : τ}, likeness.board first second →
    likeness.board (Registers.send byte first) (Registers.send byte second)
  drive : ∀ (level : Level) {first : σ} {second : τ}, likeness.board first second →
    InStep likeness.board (Board.drive level first) (Board.drive level second)
  pause : ∀ (nanos : Nat) {first : σ} {second : τ}, likeness.board first second →
    likeness.board (Board.pause nanos first) (Board.pause nanos second)
  now : ∀ {first : σ} {second : τ}, likeness.board first second →
    (Board.now second).1 = (Board.now first).1.later ticks ∧
      likeness.board (Board.now first).2 (Board.now second).2
  tell : ∀ (notice : Notice) {first : κ} {second : μ}, likeness.console first second →
    likeness.console (Console.tell notice first) (Console.tell notice second)

/-- The same actions and the same end, and transactions that are related. -/
structure Reaction.Like (R : Transaction → Transaction → Prop) (first second : Reaction) :
    Prop where
  transaction : R first.transaction second.transaction
  actions : second.actions = first.actions
  outcome : second.outcome = first.outcome

theorem Reaction.Like.verdict_eq {R : Transaction → Transaction → Prop} {first second : Reaction}
    (hlike : Reaction.Like R first second) (status : Status) :
    second.verdict status = first.verdict status := by
  unfold verdict
  rw [hlike.outcome]

/-- Related transactions react alike, and stay related whatever is put into the outbox of both. -/
structure Respected (R : Transaction → Transaction → Prop) : Prop where
  answer : ∀ {first second : Transaction}, R first second →
    ∀ (address : UInt8) (status : Status) (byte : UInt8),
      Reaction.Like R (first.answer address status byte) (second.answer address status byte)
  refilled : ∀ {first second : Transaction}, R first second → ∀ outbox : Outbox,
    R { first with outbox } { second with outbox }

theorem respected_eq : Respected Eq where
  answer := by
    rintro transaction _ rfl address status byte
    exact ⟨rfl, rfl, rfl⟩
  refilled := by
    rintro transaction _ rfl outbox
    rfl

section Ends

variable {S T U V : Type} {R : S → T → Prop} {Q : U → V → Prop} {first : Option S}
  {second : Option T}

theorem rel_bind {next : S → Option U} {other : T → Option V} (hends : Option.Rel R first second)
    (hnext : ∀ one two, R one two → Option.Rel Q (next one) (other two)) :
    Option.Rel Q (first.bind next) (second.bind other) := by
  cases hends with
  | none => exact .none
  | some hrelated => exact hnext _ _ hrelated

theorem rel_map {next : S → U} {other : T → V} (hends : Option.Rel R first second)
    (hnext : ∀ one two, R one two → Q (next one) (other two)) :
    Option.Rel Q (first.map next) (second.map other) := by
  cases hends with
  | none => exact .none
  | some hrelated => exact .some (hnext _ _ hrelated)

theorem step_bind {α : Type} {next : α × S → Option U} {other : α × T → Option V}
    {first : Option (α × S)} {second : Option (α × T)} (hends : Option.Rel (InStep R) first second)
    (hnext : ∀ answer one two, R one two →
      Option.Rel Q (next (answer, one)) (other (answer, two))) :
    Option.Rel Q (first.bind next) (second.bind other) := by
  apply rel_bind hends
  rintro ⟨answer, one⟩ ⟨answer', two⟩ ⟨hsame, hrelated⟩
  cases hsame
  exact hnext answer one two hrelated

theorem step_mono {α : Type} {P : S → T → Prop} {first : Option (α × S)} {second : Option (α × T)}
    (hends : Option.Rel (InStep R) first second) (hmono : ∀ one two, R one two → P one two) :
    Option.Rel (InStep P) first second := by
  cases hends with
  | none => exact .none
  | some hstep =>
      obtain ⟨hanswer, hrelated⟩ := hstep
      exact .some ⟨hanswer, hmono _ _ hrelated⟩

theorem step_of_some {α : Type} {answer : α} {one : S} {first : Option (α × S)}
    {second : Option (α × T)} (hends : Option.Rel (InStep R) first second)
    (hfirst : first = some (answer, one)) : ∃ two, second = some (answer, two) ∧ R one two := by
  rw [hfirst] at hends
  cases hends with
  | @some _ last hstep =>
      obtain ⟨hanswer, hrelated⟩ := hstep
      exact ⟨last.2, congrArg some (Prod.ext hanswer rfl), hrelated⟩

/-- Where related states are the same but for a change, so are the ends. -/
theorem map_of_step {α : Type} {change : S → T} {first : Option (α × S)} {second : Option (α × T)}
    (hends : Option.Rel (InStep R) first second)
    (hchange : ∀ one two, R one two → two = change one) :
    second = first.map (Prod.map id change) := by
  cases hends with
  | none => rfl
  | some hstep =>
      obtain ⟨hanswer, hrelated⟩ := hstep
      exact congrArg some (Prod.ext hanswer (hchange _ _ hrelated))

end Ends

/-! ### The link -/

namespace Link

variable {σ τ κ μ : Type}

/-- Two links that are alike. The last status of one may stand for that of the other. -/
structure Like (likeness : Likeness σ τ κ μ) (R : Transaction → Transaction → Prop)
    (first : Link σ κ) (second : Link τ μ) : Prop where
  board : likeness.board first.board second.board
  console : likeness.console first.console second.console
  config : second.config = first.config
  transaction : R first.transaction second.transaction
  dropped : second.diagnostics.dropped = first.diagnostics.dropped
  signalFailures : second.diagnostics.signalFailures = first.diagnostics.signalFailures
  lastStatus : Option.Rel likeness.word first.diagnostics.lastStatus second.diagnostics.lastStatus

variable {likeness : Likeness σ τ κ μ} {R Q : Transaction → Transaction → Prop}
  {first : Link σ κ} {second : Link τ μ}

theorem lastStatus_like {word : Status → Status → Prop} (hword : ∀ status, word status status)
    (last : Option Status) : Option.Rel word last last := by
  cases last with
  | none => exact .none
  | some status => exact .some (hword status)

theorem Like.diagnostics_eq (hlike : Like likeness R first second) (hword : likeness.word = Eq) :
    second.diagnostics = first.diagnostics := by
  rcases first with ⟨board, console, config, transaction, dropped, failures, last⟩
  rcases second with ⟨board', console', config', transaction', dropped', failures', last'⟩
  have hdropped := hlike.dropped
  have hfailures := hlike.signalFailures
  have hlast := hlike.lastStatus
  rw [hword] at hlast
  cases hdropped
  cases hfailures
  cases hlast with
  | none => rfl
  | some hsame =>
      cases hsame
      rfl

theorem load_like (hrespected : Respected R) (payload : Payload)
    (hlike : Like likeness R first second) :
    Like likeness R (first.load payload) (second.load payload) :=
  { hlike with transaction := hrespected.refilled hlike.transaction _ }

theorem unload_like (hrespected : Respected R) (hlike : Like likeness R first second) :
    Like likeness R first.unload second.unload :=
  { hlike with transaction := hrespected.refilled hlike.transaction _ }

theorem freshByte_transaction [Board σ] (status : Status) (byte : UInt8) (link : Link σ κ) :
    (link.freshByte status byte).2.transaction = link.transaction := by
  unfold freshByte
  split
  · rfl
  · rfl

section Turns

variable [Board σ] [Board τ] [Console κ] [Console μ]

/-- Where two links take one turn in step, they take all of them in step if they take the rest
    so. -/
theorem turns_of_turn {P Q : Link σ κ → Link τ μ → Prop} {start shown : Instant} {polls : Nat}
    {mode : Mode} {byte : UInt8}
    (hturn : InStep P (first.turn start mode byte) (second.turn shown mode byte))
    (hfinished : ∀ outcome one two, first.turn start mode byte = (.finished outcome, one) →
      P one two → Q one two)
    (hagain : ∀ heard one two, first.turn start mode byte = (.again heard, one) → P one two →
      Option.Rel (InStep Q) (one.turns start polls .blocking heard)
        (two.turns shown polls .blocking heard)) :
    Option.Rel (InStep Q) (first.turns start (polls + 1) mode byte)
      (second.turns shown (polls + 1) mode byte) := by
  obtain ⟨hsame, hafter⟩ := hturn
  rw [turns, turns]
  rcases hfirst : first.turn start mode byte with ⟨turn, one⟩
  rcases hsecond : second.turn shown mode byte with ⟨turn', two⟩
  rw [hfirst, hsecond] at hsame hafter
  cases hsame
  cases turn with
  | finished outcome => exact .some ⟨rfl, hfinished outcome one two hfirst hafter⟩
  | again heard => exact hagain heard one two hfirst hafter

end Turns

variable [Board σ] [Board τ] [Console κ] [Console μ] {ticks : UInt32}
  (hlasts : likeness.Lasts ticks)

include hlasts

theorem poll_like (hlike : Like likeness R first second) :
    likeness.word first.poll.1 second.poll.1 ∧ Like likeness R first.poll.2 second.poll.2 := by
  obtain ⟨hword, hboard⟩ := hlasts.poll hlike.board
  exact ⟨hword, { hlike with board := hboard, lastStatus := .some hword }⟩

theorem freshByte_like (status : Status) (byte : UInt8) (hlike : Like likeness R first second) :
    InStep (Like likeness R) (first.freshByte status byte) (second.freshByte status byte) := by
  unfold freshByte
  split
  · obtain ⟨hbyte, hboard⟩ := hlasts.sample hlike.board
    exact ⟨hbyte, { hlike with board := hboard }⟩
  · exact ⟨rfl, hlike⟩

theorem isLate_like (start : Instant) (hlike : Like likeness R first second) :
    InStep (Like likeness R) (first.isLate start) (second.isLate (start.later ticks)) := by
  obtain ⟨hnow, hboard⟩ := hlasts.now hlike.board
  refine ⟨?_, { hlike with board := hboard }⟩
  simp only [isLate, hnow, hlike.config, Instant.since_later]

theorem settle_like (hlike : Like likeness R first second) :
    second.settle.1 = first.settle.1.later ticks ∧
      Like likeness R first.settle.2 second.settle.2 := by
  obtain ⟨hnow, hboard⟩ := hlasts.now hlike.board
  have hpaused := hlasts.pause (first.config.settleMillis.toNat * Instant.nanosPerMilli) hboard
  refine ⟨hnow, { hlike with board := ?_ }⟩
  unfold settle
  rw [hlike.config]
  exact hpaused

theorem waitOn_like (start : Instant) (mode : Mode) (byte : UInt8)
    (hlike : Like likeness R first second) :
    InStep (Like likeness R) (first.waitOn start mode byte)
      (second.waitOn (start.later ticks) mode byte) := by
  cases mode with
  | nonBlocking => exact ⟨rfl, hlike⟩
  | blocking =>
      obtain ⟨hlate, hlooked⟩ := isLate_like hlasts start hlike
      have hpaused := hlasts.pause (first.config.pollMicros.toNat * Instant.nanosPerMicro)
        hlooked.board
      simp only [waitOn]
      rw [hlate]
      split
      · exact ⟨rfl, hlooked⟩
      · refine ⟨rfl, { hlooked with board := ?_ }⟩
        rw [hlooked.config]
        exact hpaused

theorem tell_like (notice : Notice) (hlike : Like likeness R first second) :
    Like likeness R (first.tell notice) (second.tell notice) :=
  { hlike with console := hlasts.tell notice hlike.console }

theorem drive_like (level : Level) (hlike : Like likeness R first second) :
    InStep (Like likeness R) (first.drive level) (second.drive level) := by
  obtain ⟨hworked, hboard⟩ := hlasts.drive level hlike.board
  simp only [drive]
  rw [hworked]
  split
  · exact ⟨rfl, { hlike with board := hboard }⟩
  · refine ⟨rfl, tell_like hlasts _ { hlike with board := hboard, signalFailures := ?_ }⟩
    exact congrArg Tally.bump hlike.signalFailures

theorem act_like (action : Action) (hlike : Like likeness R first second) :
    Like likeness R (first.act action) (second.act action) := by
  cases action with
  | send byte => exact { hlike with board := hlasts.send byte hlike.board }
  | release => exact (drive_like hlasts .high hlike).2
  | drop =>
      refine tell_like hlasts _ { hlike with dropped := ?_ }
      exact congrArg Tally.bump hlike.dropped
  | tell notice => exact tell_like hlasts notice hlike

theorem foldl_act_like (actions : List Action) (hlike : Like likeness R first second) :
    Like likeness R (actions.foldl act first) (actions.foldl act second) := by
  induction actions generalizing first second with
  | nil => exact hlike
  | cons action actions ih => exact ih (act_like hlasts action hlike)

/-- A reaction may change what the transactions have in common. -/
theorem answered_like {status : Status} {byte : UInt8}
    (hlike : Like likeness R first second)
    (hanswer : Reaction.Like Q (first.transaction.answer first.config.address status byte)
      (second.transaction.answer second.config.address status byte)) :
    Like likeness Q (first.answered status byte) (second.answered status byte) := by
  unfold answered follow
  rw [hanswer.actions]
  exact foldl_act_like hlasts _ { hlike with transaction := hanswer.transaction }

theorem respond_like (start : Instant) (status : Status)
    (byte : UInt8) (hlike : Like likeness R first second)
    (hanswer : ∀ address heard,
      Reaction.Like Q (first.transaction.answer address status heard)
        (second.transaction.answer address status heard)) :
    InStep (Like likeness Q) (first.respond start status byte)
      (second.respond (start.later ticks) status byte) := by
  obtain ⟨hbyte, hheard⟩ := freshByte_like hlasts status byte hlike
  rw [respond_eq, respond_eq]
  dsimp only
  rw [hbyte]
  have hreaction : Reaction.Like Q
      ((first.freshByte status byte).2.transaction.answer
        (first.freshByte status byte).2.config.address status (first.freshByte status byte).1)
      ((second.freshByte status byte).2.transaction.answer
        (second.freshByte status byte).2.config.address status
        (first.freshByte status byte).1) := by
    rw [freshByte_transaction, freshByte_transaction, hheard.config]
    exact hanswer _ _
  have hanswered := answered_like hlasts hheard hreaction
  rw [hreaction.verdict_eq status]
  split
  · exact ⟨rfl, hanswered⟩
  · obtain ⟨hlate, hlooked⟩ := isLate_like hlasts start hanswered
    rw [hlate]
    exact ⟨rfl, hlooked⟩

variable (hrespected : Respected R)

include hrespected

theorem turn_like (start : Instant) (mode : Mode) (byte : UInt8)
    (hlike : Like likeness R first second) :
    InStep (Like likeness R) (first.turn start mode byte)
      (second.turn (start.later ticks) mode byte) := by
  obtain ⟨hword, hpolled⟩ := poll_like hlasts hlike
  have hready := hlasts.ready hword
  simp only [turn]
  rw [hready]
  split
  · rename_i hfirst
    rw [hlasts.same hword hfirst]
    exact respond_like hlasts start _ byte hpolled fun _ _ =>
      hrespected.answer hpolled.transaction _ _ _
  · exact waitOn_like hlasts start mode byte hpolled

/-- Only the difference to the start of the call counts, and that start is shifted as well. -/
theorem turns_like (start : Instant) (polls : Nat) (mode : Mode) (byte : UInt8)
    (hlike : Like likeness R first second) :
    Option.Rel (InStep (Like likeness R)) (first.turns start polls mode byte)
      (second.turns (start.later ticks) polls mode byte) := by
  induction polls generalizing mode byte first second with
  | zero => exact .none
  | succ polls ih =>
      apply turns_of_turn (turn_like hlasts hrespected start mode byte hlike)
      · intro outcome one two _ hafter
        exact hafter
      · intro heard one two _ hafter
        exact ih .blocking heard hafter

/-- **A transaction takes the same course on links that are alike.** -/
theorem transact_like (polls : Nat) (mode : Mode) (hlike : Like likeness R first second) :
    Option.Rel (InStep (Like likeness R)) (first.transact polls mode)
      (second.transact polls mode) := by
  obtain ⟨hstart, hsettled⟩ := settle_like hlasts hlike
  have hturns := turns_like hlasts hrespected first.settle.1 polls mode 0 hsettled
  rw [← hstart] at hturns
  exact hturns

end Link

/-! ### The channel -/

namespace Channel

variable {σ τ κ μ : Type}

structure Like (likeness : Likeness σ τ κ μ) (R : Transaction → Transaction → Prop)
    (first : Channel σ κ) (second : Channel τ μ) : Prop where
  link : Link.Like likeness R first.link second.link
  response : second.response = first.response
  pending : second.pending = first.pending

variable {likeness : Likeness σ τ κ μ} {R : Transaction → Transaction → Prop}
  {first : Channel σ κ} {second : Channel τ μ}

theorem takeResponse_like (hlike : Like likeness R first second) :
    InStep (Like likeness R) first.takeResponse second.takeResponse :=
  ⟨hlike.response, { hlike with response := rfl }⟩

theorem nextEvent_like (hlike : Like likeness R first second) :
    InStep (Like likeness R) first.nextEvent second.nextEvent := by
  have hpopped := congrArg Pending.pop hlike.pending
  exact ⟨congrArg Prod.fst hpopped, { hlike with pending := congrArg Prod.snd hpopped }⟩

variable [Board σ] [Board τ] [Console κ] [Console μ] {ticks : UInt32}
  (hlasts : likeness.Lasts ticks)

include hlasts

theorem tell_like (notice : Notice) (hlike : Like likeness R first second) :
    Like likeness R (first.tell notice) (second.tell notice) :=
  { hlike with link := Link.tell_like hlasts notice hlike.link }

theorem keep_like (outcome : Outcome) (hlike : Like likeness R first second) :
    Like likeness R (first.keep outcome) (second.keep outcome) := by
  unfold keep accept
  cases outcome.frame? with
  | none => exact hlike
  | some frame =>
      dsimp only
      cases frame.event? with
      | none => exact { hlike with response := rfl }
      | some event =>
          dsimp only
          rw [hlike.pending]
          split
          · have htold := tell_like hlasts .eventEvicted hlike
            exact { htold with pending := congrArg (Pending.park frame) htold.pending }
          · exact { hlike with pending := congrArg (Pending.park frame) hlike.pending }

variable (hrespected : Respected R)

include hrespected

theorem receive_like (polls : Nat) (mode : Mode) (hlike : Like likeness R first second) :
    Option.Rel (InStep (Like likeness R)) (first.receive polls mode)
      (second.receive polls mode) := by
  rw [receive_eq, receive_eq]
  rw [Option.map_eq_bind, Option.map_eq_bind]
  apply step_bind (Link.transact_like hlasts hrespected polls mode hlike.link)
  intro outcome link other hlink
  exact .some ⟨rfl, keep_like hlasts outcome { hlike with link := hlink }⟩

theorem offer_like (payload : Payload) (hlike : Like likeness R first second) :
    Like likeness R (first.offer payload) (second.offer payload) := by
  have hloaded := Link.load_like hrespected payload hlike.link
  exact { hlike with link := (Link.drive_like hlasts .low hloaded).2 }

theorem attempt_like (polls : Nat) (payload : Payload) (hlike : Like likeness R first second) :
    Option.Rel (InStep (Like likeness R)) (first.attempt polls payload)
      (second.attempt polls payload) := by
  have hoffered := offer_like hlasts hrespected payload hlike
  apply step_bind (receive_like hlasts hrespected polls .blocking hoffered)
  intro outcome middle other hmiddle
  cases outcome with
  | sent =>
      apply step_bind (receive_like hlasts hrespected polls .blocking hmiddle)
      intro reply last other hlast
      cases reply <;> exact .some ⟨rfl, hlast⟩
  | _ => exact .some ⟨rfl, hmiddle⟩

theorem attempts_like (polls : Nat) (payload : Payload) (left number : Nat) (setbacks : Setbacks)
    (hlike : Like likeness R first second) :
    Option.Rel (InStep (Like likeness R)) (attempts polls payload left number setbacks first)
      (attempts polls payload left number setbacks second) := by
  induction left generalizing number setbacks first second with
  | zero => exact .some ⟨rfl, hlike⟩
  | succ left ih =>
      rw [attempts, attempts]
      apply step_bind (attempt_like hlasts hrespected polls payload hlike)
      intro result middle other hmiddle
      cases result with
      | answered => exact .some ⟨rfl, hmiddle⟩
      | notSent outcome => exact ih _ _ (tell_like hlasts _ hmiddle)
      | unanswered outcome => exact ih _ _ (tell_like hlasts _ hmiddle)

theorem exchange_like (polls : Nat) (payload : Payload) (hlike : Like likeness R first second) :
    Option.Rel (InStep (Like likeness R)) (first.exchange polls payload)
      (second.exchange polls payload) := by
  have hbegun : Like likeness R { first with response := none } { second with response := none } :=
    { hlike with response := rfl }
  unfold exchange
  rw [hlike.link.config, hlike.link.signalFailures]
  apply step_bind (attempts_like hlasts hrespected polls payload _ _ _ hbegun)
  intro setbacks last other hlast
  have hunloaded : Like likeness R { last with link := last.link.unload }
      { other with link := other.link.unload } :=
    { hlast with link := Link.unload_like hrespected hlast.link }
  cases setbacks with
  | none => exact .some ⟨rfl, hunloaded⟩
  | some setbacks =>
      have hfailures : other.link.unload.diagnostics.signalFailures =
          last.link.unload.diagnostics.signalFailures := hunloaded.link.signalFailures
      dsimp only
      rw [hfailures]
      exact .some ⟨rfl, tell_like hlasts _ hunloaded⟩

theorem request_like (polls : Nat) (bytes : List UInt8) (hlike : Like likeness R first second) :
    Option.Rel (InStep (Like likeness R)) (first.request polls bytes)
      (second.request polls bytes) := by
  unfold request
  cases Payload.ofBytes? bytes with
  | none => exact .some ⟨rfl, hlike⟩
  | some payload => exact exchange_like hlasts hrespected polls payload hlike

end Channel

/-- Two requesters that do alike give a dialogue the same course. -/
theorem Dialogue.run_like {ρ ω α : Type} {R : ρ → ω → Prop} {one : Requester ρ}
    {two : Requester ω}
    (hrequest : ∀ bytes {first second}, R first second →
      Option.Rel (InStep R) (one.request bytes first) (two.request bytes second))
    (htake : ∀ {first second}, R first second →
      InStep R (one.takeResponse first) (two.takeResponse second))
    (htell : ∀ notice {first second}, R first second →
      R (one.tell notice first) (two.tell notice second))
    (dialogue : Dialogue α) {first : ρ} {second : ω} (hlike : R first second) :
    Option.Rel (InStep R) (dialogue.run one first) (dialogue.run two second) := by
  induction dialogue generalizing first second with
  | done result => exact .some ⟨rfl, hlike⟩
  | request bytes next ih =>
      apply step_bind (hrequest bytes hlike)
      intro reply middle other hmiddle
      exact ih _ hmiddle
  | takeResponse next ih =>
      obtain ⟨hresponse, hmiddle⟩ := htake hlike
      have hrest := ih (one.takeResponse first).1 hmiddle
      have hsecond : (Dialogue.takeResponse next).run two second =
          (next (one.takeResponse first).1).run two (two.takeResponse second).2 := by
        rw [← hresponse]
        rfl
      rw [hsecond]
      exact hrest
  | tell notice next ih => exact ih (htell notice hlike)

theorem Channel.converse_like {σ τ κ μ α : Type} [Board σ] [Board τ] [Console κ] [Console μ]
    {likeness : Likeness σ τ κ μ} {ticks : UInt32} {R : Transaction → Transaction → Prop}
    {first : Channel σ κ} {second : Channel τ μ} (hlasts : likeness.Lasts ticks)
    (hrespected : Respected R) (polls : Nat) (dialogue : Dialogue α)
    (hlike : Channel.Like likeness R first second) :
    Option.Rel (InStep (Channel.Like likeness R)) (first.converse polls dialogue)
      (second.converse polls dialogue) :=
  Dialogue.run_like (fun bytes _ _ => request_like hlasts hrespected polls bytes)
    takeResponse_like (fun notice _ _ => tell_like hlasts notice) dialogue hlike

/-! ### The host -/

namespace Host

variable {σ τ κ μ π δ : Type}

structure Like (likeness : Likeness σ τ κ μ) (R : Transaction → Transaction → Prop)
    (first : Host σ κ π δ) (second : Host τ μ π δ) : Prop where
  channel : Channel.Like likeness R first.channel second.channel
  directory : second.directory = first.directory
  devices : second.devices = first.devices

variable {likeness : Likeness σ τ κ μ} {R : Transaction → Transaction → Prop}
  {first : Host σ κ π δ} {second : Host τ μ π δ}

theorem takeResponse_like (hlike : Like likeness R first second) :
    InStep (Like likeness R) first.takeResponse second.takeResponse := by
  obtain ⟨hresponse, hchannel⟩ := Channel.takeResponse_like hlike.channel
  exact ⟨hresponse, { hlike with channel := hchannel }⟩

variable [Board σ] [Board τ] [Console κ] [Console μ] {ticks : UInt32}
  (hlasts : likeness.Lasts ticks)

include hlasts

theorem tell_like (notice : Notice) (hlike : Like likeness R first second) :
    Like likeness R (first.tell notice) (second.tell notice) :=
  { hlike with channel := Channel.tell_like hlasts notice hlike.channel }

theorem register_like (messageType : UInt8) (owner : δ) (hlike : Like likeness R first second) :
    InStep (Like likeness R) (first.register messageType owner)
      (second.register messageType owner) := by
  unfold register
  rw [hlike.directory]
  cases first.directory.register messageType owner with
  | ok directory => exact ⟨rfl, { hlike with directory := rfl }⟩
  | error refusal => exact ⟨rfl, tell_like hlasts _ hlike⟩

section Dispatching

variable [Peripherals π δ]

theorem handled_like (calls : List (δ × Event)) (hlike : Like likeness R first second) :
    Like likeness R (first.handled calls) (second.handled calls) := by
  have htold : ∀ (notices : List Notice) {one : κ} {two : μ}, likeness.console one two →
      likeness.console (Console.tellAll notices one) (Console.tellAll notices two) := by
    intro notices
    induction notices with
    | nil => exact id
    | cons notice later ih =>
        intro one two halike
        exact ih (hlasts.tell notice halike)
  have hconsole := htold (handleAll calls first.devices).2 hlike.channel.link.console
  unfold handled
  rw [hlike.devices]
  exact ⟨{ hlike.channel with link := { hlike.channel.link with console := hconsole } },
    hlike.directory, rfl⟩

theorem dispatchPending_like (hlike : Like likeness R first second) :
    Like likeness R first.dispatchPending second.dispatchPending := by
  have hemptied : Like likeness R (first.withEmptied first.channel)
      (second.withEmptied second.channel) :=
    { hlike with channel := { hlike.channel with pending := rfl } }
  rw [dispatchPending_eq, dispatchPending_eq, hlike.directory, hlike.channel.pending]
  exact handled_like hlasts _ hemptied

end Dispatching

variable (hrespected : Respected R)

include hrespected

theorem hold_like (polls : Nat) (dialogue : Dialogue Unit) (hlike : Like likeness R first second) :
    Option.Rel (Like likeness R) (first.hold polls dialogue) (second.hold polls dialogue) := by
  have hconverse := Channel.converse_like hlasts hrespected polls dialogue hlike.channel
  unfold hold converseQuietly
  rw [Option.map_eq_bind, Option.map_eq_bind, Option.bind_eq_bind, Option.bind_eq_bind,
    Option.bind_assoc, Option.bind_assoc]
  apply step_bind hconverse
  intro result channel other hchannel
  exact .some { hlike with channel := hchannel }

theorem receiveQuietly_like (polls : Nat) (mode : Mode) (hlike : Like likeness R first second) :
    Option.Rel (InStep (Like likeness R)) (first.receiveQuietly polls mode)
      (second.receiveQuietly polls mode) := by
  apply step_bind (Channel.receive_like hlasts hrespected polls mode hlike.channel)
  intro outcome channel other hchannel
  exact .some ⟨rfl, { hlike with channel := hchannel }⟩

variable [Peripherals π δ]

theorem request_like (polls : Nat) (bytes : List UInt8) (hlike : Like likeness R first second) :
    Option.Rel (InStep (Like likeness R)) (first.request polls bytes)
      (second.request polls bytes) := by
  apply step_bind (Channel.request_like hlasts hrespected polls bytes hlike.channel)
  intro result channel other hchannel
  exact .some ⟨rfl, dispatchPending_like hlasts { hlike with channel := hchannel }⟩

theorem converse_like {α : Type} (polls : Nat) (dialogue : Dialogue α)
    (hlike : Like likeness R first second) :
    Option.Rel (InStep (Like likeness R)) (first.converse polls dialogue)
      (second.converse polls dialogue) :=
  Dialogue.run_like (fun bytes _ _ => request_like hlasts hrespected polls bytes)
    takeResponse_like (fun notice _ _ => tell_like hlasts notice) dialogue hlike

theorem serviceEvents_like (polls reads : Nat) (hlike : Like likeness R first second) :
    Option.Rel (Like likeness R) (first.serviceEvents polls reads)
      (second.serviceEvents polls reads) := by
  induction reads generalizing first second with
  | zero => exact .some hlike
  | succ reads ih =>
      rw [serviceEvents, serviceEvents]
      apply step_bind (receiveQuietly_like hlasts hrespected polls .nonBlocking hlike)
      intro outcome middle other hmiddle
      have hdispatched := dispatchPending_like hlasts hmiddle
      cases outcome with
      | received frame => exact ih hdispatched
      | cutShort => exact ih hdispatched
      | sent => exact .some (tell_like hlasts _ hdispatched)
      | idle => exact .some hdispatched
      | failed fault => exact .some (tell_like hlasts _ hdispatched)

theorem flush_like (polls : Nat) (hlike : Like likeness R first second) :
    Option.Rel (Like likeness R) (first.flush polls) (second.flush polls) := by
  apply step_bind (receiveQuietly_like hlasts hrespected polls .nonBlocking hlike)
  intro outcome middle other hmiddle
  cases outcome with
  | failed fault => exact .some (dispatchPending_like hlasts (tell_like hlasts _ hmiddle))
  | _ => exact .some (dispatchPending_like hlasts hmiddle)

theorem bringUp_like (polls : Nat) (messageType : UInt8) (hlike : Like likeness R first second) :
    Option.Rel (Like likeness R) (first.bringUp polls messageType)
      (second.bringUp polls messageType) := by
  unfold bringUp converseQuietly
  rw [hlike.directory, hlike.devices]
  cases first.directory.owner? messageType with
  | none => exact .some hlike
  | some owner =>
      have hconverse := Channel.converse_like hlasts hrespected polls
        (Peripherals.bringUp owner first.devices) hlike.channel
      dsimp only
      rw [Option.bind_eq_bind, Option.bind_eq_bind, Option.bind_eq_bind, Option.bind_eq_bind,
        Option.bind_assoc, Option.bind_assoc]
      apply step_bind hconverse
      intro devices channel other hchannel
      exact .some (dispatchPending_like hlasts ⟨hchannel, rfl, rfl⟩)

theorem bringUps_like (polls : Nat) (types : List UInt8) (hlike : Like likeness R first second) :
    Option.Rel (Like likeness R) (types.foldlM (bringUp polls) first)
      (types.foldlM (bringUp polls) second) := by
  induction types generalizing first second with
  | nil => exact .some hlike
  | cons messageType later ih =>
      rw [List.foldlM_cons, List.foldlM_cons]
      apply rel_bind (bringUp_like hlasts hrespected polls messageType hlike)
      intro middle other hmiddle
      exact ih hmiddle

/-- **Start-up takes the same course on hosts that are alike.** -/
theorem start_like (polls : Nat) (hlike : Like likeness R first second) :
    Option.Rel (Like likeness R) (first.start polls) (second.start polls) := by
  rw [start_eq, start_eq]
  apply rel_bind (flush_like hlasts hrespected polls hlike)
  intro flushed other hflushed
  have hconfig : other.config = flushed.config := hflushed.channel.link.config
  rw [hconfig]
  apply rel_bind (hold_like hlasts hrespected polls _ hflushed)
  intro talked other htalked
  have hdispatched := dispatchPending_like hlasts htalked
  apply rel_map (bringUps_like hlasts hrespected polls messageTypes hdispatched)
  intro last other hlast
  exact tell_like hlasts _ hlast

end Host

/-! ### Whole histories -/

section Histories

variable {σ τ κ μ π δ : Type} [Board σ] [Board τ] [Console κ] [Console μ]
  {likeness : Likeness σ τ κ μ} {ticks : UInt32} {R : Transaction → Transaction → Prop}

theorem Link.perform_like {first : Link σ κ} {second : Link τ μ} (hlasts : likeness.Lasts ticks)
    (hrespected : Respected R) (polls : Nat) (operation : LinkOperation)
    (hlike : Link.Like likeness R first second) :
    Option.Rel (InStep (Link.Like likeness R)) (first.perform polls operation)
      (second.perform polls operation) := by
  cases operation with
  | transact mode =>
      apply step_bind (transact_like hlasts hrespected polls mode hlike)
      intro outcome after other hafter
      exact .some ⟨rfl, hafter⟩
  | queue bytes =>
      unfold perform queue
      dsimp only
      cases Payload.ofBytes? bytes with
      | none => exact .some ⟨rfl, hlike⟩
      | some payload => exact .some ⟨rfl, load_like hrespected payload hlike⟩
  | unload => exact .some ⟨rfl, unload_like hrespected hlike⟩
  | assertRequest =>
      obtain ⟨hworked, hdriven⟩ := drive_like hlasts .low hlike
      exact .some ⟨congrArg Reply.flag hworked, hdriven⟩
  | tell notice => exact .some ⟨rfl, tell_like hlasts notice hlike⟩

theorem Channel.perform_like {first : Channel σ κ} {second : Channel τ μ}
    (hlasts : likeness.Lasts ticks) (hrespected : Respected R) (polls : Nat)
    (operation : ChannelOperation) (hlike : Channel.Like likeness R first second) :
    Option.Rel (InStep (Channel.Like likeness R)) (first.perform polls operation)
      (second.perform polls operation) := by
  cases operation with
  | onLink operation =>
      apply step_bind (Link.perform_like hlasts hrespected polls operation hlike.link)
      intro reply link other hlink
      exact .some ⟨rfl, { hlike with link := hlink }⟩
  | receive mode =>
      apply step_bind (receive_like hlasts hrespected polls mode hlike)
      intro outcome after other hafter
      exact .some ⟨rfl, hafter⟩
  | request bytes =>
      apply step_bind (request_like hlasts hrespected polls bytes hlike)
      intro result after other hafter
      exact .some ⟨rfl, hafter⟩
  | takeResponse =>
      obtain ⟨hresponse, hafter⟩ := takeResponse_like hlike
      exact .some ⟨congrArg Reply.frame hresponse, hafter⟩
  | nextEvent =>
      obtain ⟨hevent, hafter⟩ := nextEvent_like hlike
      exact .some ⟨congrArg Reply.frame hevent, hafter⟩
  | converse dialogue => exact converse_like hlasts hrespected polls dialogue hlike

theorem Host.perform_like [Peripherals π δ] {first : Host σ κ π δ} {second : Host τ μ π δ}
    (hlasts : likeness.Lasts ticks) (hrespected : Respected R) (polls : Nat)
    (operation : HostOperation δ) (hlike : Host.Like likeness R first second) :
    Option.Rel (InStep (Host.Like likeness R)) (first.perform polls operation)
      (second.perform polls operation) := by
  cases operation with
  | onChannel operation =>
      apply step_bind (Channel.perform_like hlasts hrespected polls operation hlike.channel)
      intro reply channel other hchannel
      exact .some ⟨rfl, { hlike with channel := hchannel }⟩
  | register messageType owner =>
      obtain ⟨hresult, hafter⟩ := register_like hlasts messageType owner hlike
      exact .some ⟨congrArg Reply.registered hresult, hafter⟩
  | start =>
      apply rel_bind (start_like hlasts hrespected polls hlike)
      intro after other hafter
      exact .some ⟨rfl, hafter⟩
  | pollEvents =>
      have hconfig : second.config = first.config := hlike.channel.link.config
      unfold perform pollEvents
      rw [hconfig]
      apply rel_bind (serviceEvents_like hlasts hrespected polls _ hlike)
      intro after other hafter
      exact .some ⟨rfl, hafter⟩
  | request bytes =>
      apply step_bind (request_like hlasts hrespected polls bytes hlike)
      intro result after other hafter
      exact .some ⟨rfl, hafter⟩
  | takeResponse =>
      obtain ⟨hresponse, hafter⟩ := takeResponse_like hlike
      exact .some ⟨congrArg Reply.frame hresponse, hafter⟩
  | converse dialogue => exact converse_like hlasts hrespected polls dialogue hlike

/-- **What one operation keeps in step, a whole history keeps in step.** -/
theorem performAll_like {ω S T : Type} {R : S → T → Prop} {one : S → ω → Option (Reply × S)}
    {two : T → ω → Option (Reply × T)}
    (heach : ∀ operation {first second}, R first second →
      Option.Rel (InStep R) (one first operation) (two second operation))
    (operations : List ω) {first : S} {second : T} (hlike : R first second) :
    Option.Rel (InStep R) (performAll one operations first)
      (performAll two operations second) := by
  induction operations generalizing first second with
  | nil => exact .some ⟨rfl, hlike⟩
  | cons operation later ih =>
      rw [performAll, performAll]
      apply step_bind (heach operation hlike)
      intro reply middle other hmiddle
      apply step_bind (ih hmiddle)
      intro replies last other hlast
      exact .some ⟨rfl, hlast⟩

end Histories

end EcLink
