import EcLink.Proofs.RequestReading

/-!
# The bytes of a frame

A frame is put together over many polls, and the byte that a poll has to offer is a fresh one only
while the master writes: on the other polls there is still the last one. **A frame holds the byte of
every ready poll since the link was last called**, whichever way the master was turned. So it is
what the master wrote exactly where the master wrote on all of these polls; if it turns to reading
in the middle of a frame, the last byte written enters the frame once more.
-/

namespace EcLink

/-! ### What polls have to offer -/

namespace Glimpse

def isReady (glimpse : Glimpse) : Bool := glimpse.status.isReady

/-- Whether the master called on this poll. -/
def isCall (glimpse : Glimpse) : Bool := glimpse.status.isStart

theorem isReady_of_isCall {glimpse : Glimpse} (hcall : glimpse.isCall = true) :
    glimpse.isReady = true := by
  have hstart : glimpse.status = .start := (Status.isStart_iff _).mp hcall
  rw [isReady, hstart]
  rfl

end Glimpse

/-- The bytes of the ready polls, fresh or not. -/
def heardOn (glimpses : List Glimpse) : List UInt8 :=
  (glimpses.filter Glimpse.isReady).map Glimpse.byte

/-- The bytes that the master wrote. -/
def writtenOn (glimpses : List Glimpse) : List UInt8 :=
  (glimpses.filter Glimpse.isWrite).map Glimpse.byte

/-- The polls after the last one on which the master called. -/
def sinceCall (glimpses : List Glimpse) : List Glimpse :=
  glimpses.rtakeWhile fun glimpse => !glimpse.isCall

/-- The first ready poll is a call. -/
def Begins (glimpses : List Glimpse) : Prop :=
  (glimpses.find? Glimpse.isReady).map Glimpse.isCall = some true

instance (glimpses : List Glimpse) : Decidable (Begins glimpses) :=
  inferInstanceAs (Decidable (_ = _))

/-- **What was heard was written only if the master wrote all the time.** Nothing that was written
    goes unheard, so there is a byte too many for every poll on which the master did not write. -/
theorem heardOn_eq_writtenOn_iff (glimpses : List Glimpse) :
    heardOn glimpses = writtenOn glimpses ↔
      ∀ glimpse ∈ glimpses, glimpse.isReady = true → glimpse.status.isMasterWrite = true := by
  have hboth : glimpses.filter Glimpse.isWrite =
      (glimpses.filter Glimpse.isReady).filter (·.status.isMasterWrite) := by
    rw [List.filter_filter]
    apply List.filter_congr
    intro glimpse _
    exact Bool.and_comm _ _
  constructor
  · intro hsame glimpse hmem hready
    have hlength := congrArg List.length hsame
    unfold heardOn writtenOn at hlength
    rw [List.length_map, List.length_map, hboth] at hlength
    exact List.length_filter_eq_length_iff.mp hlength.symm glimpse
      (List.mem_filter.mpr ⟨hmem, hready⟩)
  · intro hwrites
    have hall : (glimpses.filter Glimpse.isReady).filter (·.status.isMasterWrite) =
        glimpses.filter Glimpse.isReady := by
      apply List.filter_eq_self.mpr
      intro glimpse hmem
      obtain ⟨hglimpse, hready⟩ := List.mem_filter.mp hmem
      exact hwrites glimpse hglimpse hready
    rw [heardOn, writtenOn, hboth, hall]

theorem heardOn_concat (glimpses : List Glimpse) (glimpse : Glimpse) :
    heardOn (glimpses ++ [glimpse]) =
      heardOn glimpses ++ if glimpse.isReady then [glimpse.byte] else [] := by
  unfold heardOn
  rw [List.filter_append, List.map_append, List.filter_singleton]
  cases glimpse.isReady <;> rfl

theorem sinceCall_concat_call (glimpses : List Glimpse) {glimpse : Glimpse}
    (hcall : glimpse.isCall = true) : sinceCall (glimpses ++ [glimpse]) = [] := by
  apply List.rtakeWhile_concat_neg
  simp [hcall]

theorem sinceCall_concat (glimpses : List Glimpse) {glimpse : Glimpse}
    (hlater : glimpse.isCall = false) :
    sinceCall (glimpses ++ [glimpse]) = sinceCall glimpses ++ [glimpse] := by
  apply List.rtakeWhile_concat_pos
  simp [hlater]

theorem begins_cons_of_idle {glimpse : Glimpse} {later : List Glimpse}
    (hidle : glimpse.isReady = false) (hbegins : Begins (glimpse :: later)) : Begins later := by
  simpa [Begins, hidle] using hbegins

theorem isCall_of_begins {glimpse : Glimpse} {later : List Glimpse}
    (hready : glimpse.isReady = true) (hbegins : Begins (glimpse :: later)) :
    glimpse.isCall = true := by
  simpa [Begins, hready] using hbegins

/-! ### What a transaction collects -/

namespace Transaction

variable {address : UInt8} {glimpse : Glimpse} {transaction next : Transaction}
  {bytes : List UInt8} {actions : List Action}

/-- Called, and with these bytes heard since. While the master reads they do not matter, but that
    there are two at least: it has to call again before it can hand over a frame. -/
inductive Collects (bytes : List UInt8) (transaction : Transaction) : Prop
  | called (hphase : transaction.phase = .header) (hempty : transaction.inbox.bytes = [])
      (hnothing : bytes = [])
  | hearing (hhearing : transaction.Hearing bytes)
  | reading (hphase : transaction.phase = .sending) (hmany : 2 ≤ bytes.length)

theorem Hearing.phase_eq (hhearing : Hearing bytes transaction) :
    transaction.phase = .direction ∨ transaction.phase = .receiving := by
  rw [hhearing.phase]
  split
  · exact .inl rfl
  · exact .inr rfl

/-- A byte too many leaves the inbox as it is, and is no longer among the bytes that count. -/
theorem Hearing.accept (hhearing : Hearing bytes transaction) (byte : UInt8) :
    Hearing (bytes ++ [byte]) (transaction.accept byte .receiving) := by
  have hpositive := hhearing.positive
  have hlength : (bytes ++ [byte]).length = bytes.length + 1 := List.length_append
  have hmore : ¬ (bytes ++ [byte]).length = 1 := by omega
  refine ⟨by omega, ?_, ?_⟩
  · rw [if_neg hmore]
    rfl
  · change (transaction.inbox.push byte).bytes = _
    by_cases hroom : bytes.length < maxFrameLength
    · have hbytes : transaction.inbox.bytes = bytes := by
        rw [hhearing.inbox, List.take_of_length_le (Nat.le_of_lt hroom)]
      rw [Inbox.bytes_push (by rwa [hbytes]), hbytes, List.take_of_length_le (by omega)]
    · have hfull : ¬ transaction.inbox.fill < maxFrameLength := by
        rw [← Inbox.length_bytes, hhearing.inbox, List.length_take]
        omega
      rw [Inbox.push, dif_neg hfull, hhearing.inbox,
        List.take_append_of_le_length (Nat.le_of_not_lt hroom)]

theorem Hearing.drop (hhearing : Hearing bytes transaction)
    (hfull : transaction.inbox.isFull = true) (byte : UInt8) :
    Hearing (bytes ++ [byte]) transaction := by
  have hpositive := hhearing.positive
  have hlength : (bytes ++ [byte]).length = bytes.length + 1 := List.length_append
  have hmany : maxFrameLength ≤ bytes.length := by
    rw [Inbox.isFull_iff, hhearing.inbox, List.length_take] at hfull
    omega
  have hlater : ¬ bytes.length = 1 := by
    unfold maxFrameLength at hmany
    omega
  have hmore : ¬ (bytes ++ [byte]).length = 1 := by omega
  have hphase := hhearing.phase
  rw [if_neg hlater] at hphase
  refine ⟨by omega, ?_, ?_⟩
  · rw [if_neg hmore]
    exact hphase
  · rw [hhearing.inbox, List.take_append_of_le_length hmany]

theorem collects_addressed (transaction : Transaction) : Collects [] transaction.addressed :=
  .called rfl rfl rfl

/-- The phases of a transaction that collects. -/
theorem Collects.hearing_of_phase (hcollects : Collects bytes transaction)
    (hphase : transaction.phase = .direction ∨ transaction.phase = .receiving) :
    Hearing bytes transaction := by
  cases hcollects with
  | hearing hhearing => exact hhearing
  | called hheader => rcases hphase with hphase | hphase <;> simp [hheader] at hphase
  | reading hsending => rcases hphase with hphase | hphase <;> simp [hsending] at hphase

theorem Hearing.length_of_direction (hhearing : Hearing bytes transaction)
    (hphase : transaction.phase = .direction) : bytes.length = 1 := by
  by_contra hmore
  have hother := hhearing.phase
  rw [if_neg hmore, hphase] at hother
  cases hother

theorem Collects.many_of_sending (hcollects : Collects bytes transaction)
    (hphase : transaction.phase = .sending) : 2 ≤ bytes.length := by
  cases hcollects with
  | called hheader => simp [hheader] at hphase
  | hearing hhearing => rcases hhearing.phase_eq with hother | hother <;> simp [hother] at hphase
  | reading _ hmany => exact hmany

theorem Collects.called_of_phase (hcollects : Collects bytes transaction)
    (hphase : transaction.phase = .header) : transaction.inbox.bytes = [] ∧ bytes = [] := by
  cases hcollects with
  | called _ hempty hnothing => exact ⟨hempty, hnothing⟩
  | hearing hhearing => rcases hhearing.phase_eq with hother | hother <;> simp [hother] at hphase
  | reading hsending => simp [hsending] at hphase

theorem Collects.phase_ne (hcollects : Collects bytes transaction) :
    transaction.phase ≠ .address ∧ transaction.phase ≠ .announcing := by
  cases hcollects with
  | called hheader => simp [hheader]
  | hearing hhearing => rcases hhearing.phase_eq with hphase | hphase <;> simp [hphase]
  | reading hsending => simp [hsending]

/-- **A ready poll adds its byte**, unless it is a call, which forgets all there was. -/
theorem Collects.continues (hcollects : Collects bytes transaction)
    (hcontinues : Continues address glimpse transaction actions next)
    (hready : glimpse.isReady = true) :
    Collects (if glimpse.isCall then [] else bytes ++ [glimpse.byte]) next := by
  cases hcall : glimpse.isCall with
  | true =>
      obtain ⟨-, hnext⟩ := hcontinues.of_start ((Status.isStart_iff _).mp hcall)
      rw [hnext]
      exact collects_addressed transaction
  | false =>
      rw [if_neg Bool.false_ne_true]
      have hlength : (bytes ++ [glimpse.byte]).length = bytes.length + 1 := List.length_append
      cases hcontinues with
      | waiting hidle =>
          rw [Glimpse.isReady, hidle] at hready
          cases hready
      | called hcalled hours =>
          rcases hcalled with hstart | hphase
          · rw [Glimpse.isCall, hstart] at hcall
            cases hcall
          · exact (hcollects.phase_ne.1 hphase).elim
      | headed hphase hlater =>
          obtain ⟨hempty, hnothing⟩ := hcollects.called_of_phase hphase
          rw [hnothing]
          exact .hearing (hearing_header hempty _)
      | turned hphase =>
          have hone := (hcollects.hearing_of_phase (.inl hphase)).length_of_direction hphase
          exact .reading rfl (by omega)
      | stored hphase hlater => exact .hearing ((hcollects.hearing_of_phase hphase).accept _)
      | dropped hphase hfull hlater =>
          exact .hearing ((hcollects.hearing_of_phase (.inr hphase)).drop hfull _)
      | announced hphase hlater => exact (hcollects.phase_ne.2 hphase).elim
      | handedOut hphase =>
          have hmany := hcollects.many_of_sending hphase
          exact .reading hphase (by omega)

/-- **What is collected is what was heard since the last call**, once there has been one. -/
theorem collects_or_begins {passed later : List Glimpse}
    (hopen : (transaction.meet address glimpse).outcome = none)
    (hbefore : Collects (heardOn (sinceCall passed)) transaction ∨ Begins (glimpse :: later)) :
    Collects (heardOn (sinceCall (passed ++ [glimpse])))
        (transaction.meet address glimpse).transaction ∨ Begins later := by
  have hcontinues := meet_continues hopen
  cases hready : glimpse.isReady with
  | false =>
      have hlate : glimpse.isCall = false := by
        rw [Bool.eq_false_iff]
        intro hcall
        simp [Glimpse.isReady_of_isCall hcall] at hready
      have hsame : (transaction.meet address glimpse).transaction = transaction :=
        congrArg Reaction.transaction (meet_of_idle address transaction hready)
      rcases hbefore with hcollects | hbegins
      · left
        rw [hsame, sinceCall_concat passed hlate, heardOn_concat, hready]
        simpa using hcollects
      · right
        exact begins_cons_of_idle hready hbegins
  | true =>
      left
      rcases hbefore with hcollects | hbegins
      · have hnext := hcollects.continues hcontinues hready
        cases hcall : glimpse.isCall with
        | true =>
            rw [hcall] at hnext
            rw [sinceCall_concat_call passed hcall]
            exact hnext
        | false =>
            rw [hcall] at hnext
            rw [sinceCall_concat passed hcall, heardOn_concat, hready]
            exact hnext
      · have hcall := isCall_of_begins hready hbegins
        obtain ⟨-, hnext⟩ := hcontinues.of_start ((Status.isStart_iff _).mp hcall)
        rw [hnext, sinceCall_concat_call passed hcall]
        exact collects_addressed transaction

/-- A frame that is handed over is all that was heard: where it was too much for the inbox, no frame
    is. -/
theorem Collects.concludes {frame : Frame} (hcollects : Collects bytes transaction)
    (hends : (transaction.meet address glimpse).outcome = some (.received frame)) :
    glimpse.isReady = true ∧ glimpse.isCall = false ∧ frame.bytes = bytes ++ [glimpse.byte] := by
  obtain ⟨hready, hconcludes⟩ := meet_concludes hends
  generalize (transaction.meet address glimpse).actions = actions at hconcludes
  generalize (transaction.meet address glimpse).transaction = next at hconcludes
  cases hconcludes with
  | delivered hstop hphase hframe =>
      have hlater : glimpse.status.isStart = false := by
        rw [Bool.eq_false_iff]
        intro hstart
        rw [(Status.isStart_iff _).mp hstart] at hstop
        cases hstop
      have hhearing := hcollects.hearing_of_phase hphase
      refine ⟨hready, hlater, ?_⟩
      by_cases hroom : bytes.length < maxFrameLength
      · have hbytes : transaction.inbox.bytes = bytes := by
          rw [hhearing.inbox, List.take_of_length_le (Nat.le_of_lt hroom)]
        rw [Frame.ofBytes?_eq_some_iff.mp hframe, Inbox.bytes_push (by rwa [hbytes]), hbytes]
      · have hanswer := hhearing.answer_of_full (Nat.le_of_not_lt hroom) hlater address glimpse.byte
        rw [meet, if_pos hready, hanswer] at hends
        simp [Reaction.verdict, hstop] at hends

end Transaction

open Transaction in
/-- **A frame is what was heard since the last call**, in a call of the link that began with one. -/
theorem Undergoes.frame_heard {address : UInt8} {transaction final : Transaction}
    {glimpses passed : List Glimpse} {actions : List Action} {outcome : Outcome} {frame : Frame}
    (hundergoes : Undergoes address transaction glimpses actions outcome final)
    (hframe : outcome = .received frame)
    (hbefore : Collects (heardOn (sinceCall passed)) transaction ∨ Begins glimpses) :
    frame.bytes = heardOn (sinceCall (passed ++ glimpses)) := by
  -- The induction is on the polls to come, with those gone by added up in `passed`.
  induction hundergoes generalizing passed with
  | goesOn hopen hlater ih =>
      rw [List.append_cons]
      exact ih hframe (collects_or_begins hopen hbefore)
  | @ends transaction glimpse _ hends =>
      subst hframe
      rcases hbefore with hcollects | hbegins
      · obtain ⟨hready, hlater, hbytes⟩ := hcollects.concludes hends
        rw [sinceCall_concat passed hlater, heardOn_concat, hready, hbytes]
        rfl
      · -- A call does not stop, so it hands over no frame.
        obtain ⟨hready, hconcludes⟩ := meet_concludes hends
        have hcall := isCall_of_begins hready hbegins
        have hstop := hconcludes.stop_of_done rfl
        rw [(Status.isStart_iff _).mp hcall] at hstop
        cases hstop
  | givenUp hopen hreason =>
      subst hframe
      rcases hreason with hidle | hlate
      · cases hidle
      · cases hlate

/-! ### Reading the polls off a trace -/

/-- The polls among these inputs, each with the byte that there was on it: the one sampled on it, or
    the last one. -/
def glimpsesAmong : UInt8 → List Signal → List Glimpse
  | _, [] => []
  | _, .polled status :: .sampled byte :: later => ⟨status, byte⟩ :: glimpsesAmong byte later
  | byte, .polled status :: later => ⟨status, byte⟩ :: glimpsesAmong byte later
  | byte, _ :: later => glimpsesAmong byte later

theorem glimpsesAmong_inputs {glimpses : List Glimpse} {byte : UInt8}
    (hcarries : Carries byte glimpses) :
    glimpsesAmong byte (glimpses.flatMap Glimpse.inputs) = glimpses := by
  induction glimpses generalizing byte with
  | nil => rfl
  | cons glimpse later ih =>
      obtain ⟨hkept, hlater⟩ := hcarries
      have hrest := ih hlater
      rw [List.flatMap_cons, Glimpse.inputs]
      cases hwrite : glimpse.isWrite with
      | true =>
          simp only [if_true, List.cons_append, List.nil_append, glimpsesAmong]
          rw [hrest]
      | false =>
          have hbyte := hkept hwrite
          rw [hbyte] at hrest
          simp only [Bool.false_eq_true, if_false, List.cons_append, List.nil_append]
          -- The next input, if there is one, is a poll and not a sample.
          cases later with
          | nil =>
              rw [List.flatMap_nil, glimpsesAmong, glimpsesAmong, ← hbyte]
              rintro sampled rest ⟨⟩
          | cons second later =>
              rw [List.flatMap_cons, Glimpse.inputs, List.cons_append] at hrest ⊢
              rw [glimpsesAmong, hrest, ← hbyte]
              rintro sampled rest ⟨⟩

namespace Link

variable {σ κ : Type}

/-- The polls since an earlier state, each with the byte that there was on it. At first this is
    zero. -/
def glimpsesSince (before after : Link (Traced σ) κ) : List Glimpse :=
  glimpsesAmong 0 ((before.signalsSince after).filter Signal.isInput)

variable [Board σ] [Console κ]

theorem transact_logged {polls : Nat} {mode : Mode} {link after : Link (Traced σ) κ}
    {outcome : Outcome} (hdone : link.transact polls mode = some (outcome, after)) :
    ∃ actions, Undergoes link.config.address link.transaction (link.glimpsesSince after) actions
        outcome after.transaction ∧
      Logged ((link.glimpsesSince after).flatMap Glimpse.inputs) actions link after := by
  obtain ⟨glimpses, actions, hundergoes, hlogged, hcarries⟩ := transact_undergoes hdone
  obtain ⟨signals, htrace, hinputs, -⟩ := hlogged.trace
  have hglimpses : link.glimpsesSince after = glimpses := by
    rw [glimpsesSince, signalsSince_eq htrace, hinputs]
    exact glimpsesAmong_inputs hcarries
  rw [hglimpses]
  exact ⟨actions, hundergoes, hlogged⟩

theorem transact_glimpses {polls : Nat} {mode : Mode} {link after : Link (Traced σ) κ}
    {outcome : Outcome} (hdone : link.transact polls mode = some (outcome, after)) :
    ∃ actions, Undergoes link.config.address link.transaction (link.glimpsesSince after) actions
      outcome after.transaction := by
  obtain ⟨actions, hundergoes, -⟩ := transact_logged hdone
  exact ⟨actions, hundergoes⟩

/-- **Where the bytes of a frame come from.** In a call of the link that begins with a call of the
    master, a frame is what was heard on the ready polls since the last such call, and this is what
    the master wrote just if it wrote on all of them. -/
theorem frame_written_iff {polls : Nat} {mode : Mode} {link after : Link (Traced σ) κ}
    {frame : Frame} (hdone : link.transact polls mode = some (.received frame, after))
    (hbegins : Begins (link.glimpsesSince after)) :
    frame.bytes = heardOn (sinceCall (link.glimpsesSince after)) ∧
      (frame.bytes = writtenOn (sinceCall (link.glimpsesSince after)) ↔
        ∀ glimpse ∈ sinceCall (link.glimpsesSince after), glimpse.isReady = true →
          glimpse.status.isMasterWrite = true) := by
  obtain ⟨actions, hundergoes⟩ := transact_glimpses hdone
  have hheard : frame.bytes = heardOn (sinceCall ([] ++ link.glimpsesSince after)) :=
    hundergoes.frame_heard rfl (.inr hbegins)
  rw [List.nil_append] at hheard
  refine ⟨hheard, ?_⟩
  rw [hheard]
  exact heardOn_eq_writtenOn_iff _

def polling (steps : List ScriptStep) : Link ScriptedBoard Silent :=
  (Channel.scripted {} steps).link

/-- What the first call on a script delivers, and what the master wrote for it. -/
def delivery (polls : Nat) (steps : List ScriptStep) :
    Option (Option (List UInt8) × Bool × List UInt8) :=
  ((polling steps).transact polls .blocking).map fun (outcome, after) =>
    (outcome.frame?.map Frame.bytes, decide (Begins ((polling steps).glimpsesSince after)),
      writtenOn (sinceCall ((polling steps).glimpsesSince after)))

theorem delivery_eq_some {polls : Nat} {steps : List ScriptStep} {bytes written : List UInt8}
    (hrun : delivery polls steps = some (some bytes, true, written)) :
    ∃ frame after, (polling steps).transact polls .blocking = some (.received frame, after) ∧
      Begins ((polling steps).glimpsesSince after) ∧ frame.bytes = bytes ∧
      writtenOn (sinceCall ((polling steps).glimpsesSince after)) = written := by
  obtain ⟨⟨outcome, after⟩, hdone, hall⟩ := Option.map_eq_some_iff.mp hrun
  obtain ⟨hframe, hrest⟩ := Prod.mk.inj hall
  obtain ⟨hbegins, hwritten⟩ := Prod.mk.inj hrest
  obtain ⟨frame, houtcome, hbytes⟩ := Option.map_eq_some_iff.mp hframe
  rw [Outcome.frame?_eq_some_iff.mp houtcome] at hdone
  exact ⟨frame, after, hdone, of_decide_eq_true hbegins, hbytes, hwritten⟩

/-- The controller is interrupted twice while it pushes an event, and calls again once. -/
def pushedInPieces : List ScriptStep :=
  [⟨.start, some MasterScript.usualAddress⟩, ⟨.written, some 0x85⟩, MasterScript.idle] ++
    [⟨.start, some MasterScript.usualAddress⟩, ⟨.written, some 0x85⟩, MasterScript.idle,
      ⟨.stopped, some 0x02⟩]

theorem frame_written_in_pieces :
    ∃ frame after,
      (polling pushedInPieces).transact 7 .blocking = some (.received frame, after) ∧
      Begins ((polling pushedInPieces).glimpsesSince after) ∧ frame.bytes = [0x85, 0x02] ∧
      (frame.bytes = heardOn (sinceCall ((polling pushedInPieces).glimpsesSince after)) ∧
        (frame.bytes = writtenOn (sinceCall ((polling pushedInPieces).glimpsesSince after)) ↔
          ∀ glimpse ∈ sinceCall ((polling pushedInPieces).glimpsesSince after),
            glimpse.isReady = true → glimpse.status.isMasterWrite = true)) := by
  have hrun : delivery 7 pushedInPieces = some (some [0x85, 0x02], true, [0x85, 0x02]) := by
    decide
  obtain ⟨frame, after, hdone, hbegins, hbytes, -⟩ := delivery_eq_some hrun
  exact ⟨frame, after, hdone, hbegins, hbytes, frame_written_iff hdone hbegins⟩

/-- The master turns to reading in the middle of a frame, and writes its last byte after that. -/
def turnedInFrame : List ScriptStep :=
  [⟨.start, some MasterScript.usualAddress⟩, ⟨.written, some 0x82⟩, ⟨.written, some 0x10⟩,
    ⟨.readOut, none⟩, ⟨.stopped, some 0x20⟩]

/-- The byte before the turn enters the frame twice. -/
theorem frame_ne_written :
    ∃ frame after, (polling turnedInFrame).transact 5 .blocking = some (.received frame, after) ∧
      Begins ((polling turnedInFrame).glimpsesSince after) ∧
      frame.bytes = [0x82, 0x10, 0x10, 0x20] ∧
      writtenOn (sinceCall ((polling turnedInFrame).glimpsesSince after)) =
        [0x82, 0x10, 0x20] := by
  have hrun : delivery 5 turnedInFrame =
      some (some [0x82, 0x10, 0x10, 0x20], true, [0x82, 0x10, 0x20]) := by decide
  exact delivery_eq_some hrun

end Link

end EcLink
