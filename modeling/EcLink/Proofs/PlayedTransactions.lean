import EcLink.Proofs.Playback

/-!
# The two kinds of transactions, played

Whatever a link was in the middle of, the first step of a script starts over, so the outcome of a
transaction depends on its script and on what is queued alone. While the master writes, the inbox
holds the bytes so far as long as there is room; while it reads, the outbox counts the bytes that
are out. These are the invariants of the two inductions.
-/

namespace EcLink

/-! ### The address and the header -/

def Transaction.addressed (transaction : Transaction) : Transaction :=
  { transaction.restart with phase := .header }

theorem Transaction.answer_start (address : UInt8) (transaction : Transaction) :
    transaction.answer address .start address = transaction.addressed.proceed := by
  have hstart : Status.start.isStart = true := rfl
  simp only [answer, hstart, if_true, restart, react]
  rfl

theorem Transaction.answer_header {transaction : Transaction} (hphase : transaction.phase = .header)
    (address : UInt8) (status : Status) (hstart : status.isStart = false) (byte : UInt8) :
    transaction.answer address status byte = (transaction.accept byte .direction).proceed := by
  simp [answer, hstart, react, hphase]

/-- The first step of a script begins a transaction, whatever was in flight. -/
theorem Padded.start {address : UInt8} {script steps : List ScriptStep}
    (hpadded : Padded (⟨.start, some address⟩ :: script) steps) (stance : Stance) :
    ∃ padded, Padded script padded ∧
      ∀ {actions : List Action} {outcome : Outcome} {final : Transaction},
        Plays address ⟨stance.transaction.addressed, address, address⟩ padded actions outcome
          final →
        Plays address stance steps actions outcome final := by
  have hanswer := stance.transaction.answer_start address
  obtain ⟨padded, hlater, hplays⟩ := hpadded.writesOn address stance
    rfl rfl (by rw [hanswer]; rfl)
  rw [hanswer] at hplays
  exact ⟨padded, hlater, hplays⟩

/-! ### The master writes -/

def overflow (bytes : List UInt8) : Nat := bytes.length - maxFrameLength

/-- How a transaction ends in which the master wrote these bytes: a frame has a header and at least
    one more byte, and it fits. -/
def writeOutcome (bytes : List UInt8) : Outcome :=
  if hfits : 2 ≤ bytes.length ∧ bytes.length ≤ maxFrameLength then
    .received ⟨bytes, by omega, hfits.2⟩
  else
    .cutShort

theorem writeOutcome_of_long {bytes : List UInt8} (hlong : maxFrameLength < bytes.length) :
    writeOutcome bytes = .cutShort := by
  rw [writeOutcome, dif_neg (by omega)]

theorem writeOutcome_of_fits {bytes : List UInt8} {frame : Frame}
    (hframe : Frame.ofBytes? bytes = some frame) (hmin : 2 ≤ bytes.length) :
    writeOutcome bytes = .received frame := by
  obtain rfl := Frame.ofBytes?_eq_some_iff.mp hframe
  rw [writeOutcome, dif_pos ⟨hmin, frame.length_le⟩]

namespace Transaction

/-- In the middle of a frame, with these bytes written so far. -/
structure Hearing (bytes : List UInt8) (transaction : Transaction) : Prop where
  positive : 1 ≤ bytes.length
  phase : transaction.phase = if bytes.length = 1 then .direction else .receiving
  inbox : transaction.inbox.bytes = bytes.take maxFrameLength

variable {bytes : List UInt8} {transaction : Transaction}

theorem hearing_header (hinbox : transaction.inbox.bytes = []) (byte : UInt8) :
    Hearing [byte] (transaction.accept byte .direction) := by
  have hroom : transaction.inbox.bytes.length < maxFrameLength := by
    rw [hinbox]
    decide
  refine ⟨Nat.le_refl 1, rfl, ?_⟩
  change (transaction.inbox.push byte).bytes = _
  rw [Inbox.bytes_push hroom, hinbox]
  rfl

theorem Hearing.answer_of_room (hhearing : Hearing bytes transaction)
    (hroom : bytes.length < maxFrameLength) (status : Status) (hstart : status.isStart = false)
    (hwrites : status.isReadRequest = false) (address byte : UInt8) :
    transaction.answer address status byte =
        (transaction.accept byte .receiving).endOfFrame status ∧
      (transaction.accept byte .receiving).inbox.bytes = bytes ++ [byte] := by
  obtain ⟨-, hphase, hinbox⟩ := hhearing
  rw [List.take_of_length_le (Nat.le_of_lt hroom)] at hinbox
  have hfits : transaction.inbox.bytes.length < maxFrameLength := by
    rw [hinbox]
    exact hroom
  refine ⟨?_, ?_⟩
  · have hnotFull : ¬ transaction.inbox.isFull = true := by
      rw [Inbox.isFull_iff]
      exact Nat.ne_of_lt hfits
    by_cases hfirst : bytes.length = 1
    · rw [if_pos hfirst] at hphase
      simp [answer, hstart, react, hphase, hwrites]
    · rw [if_neg hfirst] at hphase
      simp [answer, hstart, react, hphase, hnotFull]
  · change (transaction.inbox.push byte).bytes = _
    rw [Inbox.bytes_push hfits, hinbox]

theorem Hearing.answer_of_full (hhearing : Hearing bytes transaction)
    (hfull : maxFrameLength ≤ bytes.length) {status : Status} (hstart : status.isStart = false)
    (address byte : UInt8) :
    transaction.answer address status byte = ⟨transaction, [.drop], none⟩ := by
  obtain ⟨-, hphase, hinbox⟩ := hhearing
  have hlater : ¬ bytes.length = 1 := by
    simp only [maxFrameLength] at hfull
    omega
  have hcells : transaction.inbox.isFull = true := by
    rw [Inbox.isFull_iff, hinbox, List.length_take, Nat.min_eq_left hfull]
  rw [if_neg hlater] at hphase
  simp [answer, hstart, react, hphase, hcells]

theorem Hearing.more (hhearing : Hearing bytes transaction) (address byte : UInt8) :
    ∃ next, transaction.answer address .written byte =
        ⟨next, List.replicate (overflow (bytes ++ [byte]) - overflow bytes) .drop, none⟩ ∧
      Hearing (bytes ++ [byte]) next ∧ next.outbox = transaction.outbox := by
  have hpositive := hhearing.positive
  by_cases hroom : bytes.length < maxFrameLength
  · obtain ⟨hanswer, hstored⟩ := hhearing.answer_of_room hroom .written rfl rfl address byte
    have hdrops : overflow (bytes ++ [byte]) - overflow bytes = 0 := by
      simp only [overflow, List.length_append, List.length_singleton]
      omega
    refine ⟨transaction.accept byte .receiving, ?_, ⟨?_, ?_, ?_⟩, rfl⟩
    · rw [hanswer, hdrops]
      rfl
    · rw [List.length_append]
      exact Nat.le_add_left ..
    · rw [List.length_append, List.length_singleton, if_neg (by omega)]
      rfl
    · rw [hstored, List.take_of_length_le]
      rw [List.length_append, List.length_singleton]
      exact hroom
  · have hfull : maxFrameLength ≤ bytes.length := Nat.le_of_not_lt hroom
    have hdrops : overflow (bytes ++ [byte]) - overflow bytes = 1 := by
      simp only [overflow, List.length_append, List.length_singleton]
      omega
    have hlater : ¬ bytes.length = 1 := by
      simp only [maxFrameLength] at hfull
      omega
    refine ⟨transaction, ?_, ⟨?_, ?_, ?_⟩, rfl⟩
    · rw [hhearing.answer_of_full hfull rfl, hdrops]
      rfl
    · rw [List.length_append]
      exact Nat.le_add_left ..
    · rw [hhearing.phase, if_neg hlater, List.length_append, List.length_singleton,
        if_neg (by omega)]
    · rw [hhearing.inbox, List.take_append_of_le_length hfull]

theorem Hearing.last (hhearing : Hearing bytes transaction) (address byte : UInt8) :
    (transaction.answer address .stopped byte).verdict .stopped =
        some (writeOutcome (bytes ++ [byte])) ∧
      (transaction.answer address .stopped byte).actions =
        List.replicate (overflow (bytes ++ [byte]) - overflow bytes) .drop ∧
      (transaction.answer address .stopped byte).transaction.outbox = transaction.outbox := by
  have hpositive := hhearing.positive
  have hlength : (bytes ++ [byte]).length = bytes.length + 1 := by
    rw [List.length_append, List.length_singleton]
  by_cases hroom : bytes.length < maxFrameLength
  · obtain ⟨hanswer, hstored⟩ := hhearing.answer_of_room hroom .stopped rfl rfl address byte
    have hdrops : overflow (bytes ++ [byte]) - overflow bytes = 0 := by
      simp only [overflow, hlength]
      omega
    obtain ⟨frame, hframe⟩ : ∃ frame, Frame.ofBytes? (bytes ++ [byte]) = some frame :=
      ⟨⟨bytes ++ [byte], by omega, by omega⟩, Frame.ofBytes?_eq_some_iff.mpr rfl⟩
    have houtcome : writeOutcome (bytes ++ [byte]) = .received frame :=
      writeOutcome_of_fits hframe (by omega)
    have hend : transaction.answer address .stopped byte =
        ⟨{ transaction.accept byte .receiving with
          inbox := (transaction.accept byte .receiving).inbox.rewind }, [],
          some (.received frame)⟩ := by
      rw [hanswer, endOfFrame, if_pos (by rfl : Status.stopped.isStop = true), Inbox.frame?,
        hstored, hframe]
      rfl
    rw [hend, houtcome, hdrops]
    exact ⟨rfl, rfl, rfl⟩
  · have hfull : maxFrameLength ≤ bytes.length := Nat.le_of_not_lt hroom
    have hdrops : overflow (bytes ++ [byte]) - overflow bytes = 1 := by
      simp only [overflow, hlength]
      omega
    rw [hhearing.answer_of_full hfull rfl, hdrops, writeOutcome_of_long (by omega)]
    exact ⟨rfl, rfl, rfl⟩

end Transaction

theorem Padded.frame_plays {byte : UInt8} {written todo : List UInt8} {steps : List ScriptStep}
    (hpadded : Padded (MasterScript.writtenBytes (byte :: todo)) steps) (address : UInt8)
    (stance : Stance) (hhearing : stance.transaction.Hearing written) :
    ∃ final, Plays address stance steps
        (List.replicate (overflow (written ++ byte :: todo) - overflow written) .drop)
        (writeOutcome (written ++ byte :: todo)) final ∧
      final.outbox = stance.transaction.outbox := by
  induction todo generalizing byte written steps stance with
  | nil =>
      obtain ⟨hverdict, hactions, houtbox⟩ := hhearing.last address byte
      have hplays := hpadded.writesLast address stance rfl
        rfl hverdict
      rw [hactions] at hplays
      exact ⟨_, hplays, houtbox⟩
  | cons second todo ih =>
      obtain ⟨next, hanswer, hhearing', houtbox⟩ := hhearing.more address byte
      obtain ⟨padded, hlater, hplays⟩ := hpadded.writesOn address stance
        rfl rfl (by rw [hanswer]; rfl)
      rw [hanswer] at hplays
      obtain ⟨final, hrest, hfinal⟩ := ih hlater ⟨next, byte, byte⟩ hhearing'
      rw [List.append_assoc, List.singleton_append] at hrest
      refine ⟨final, ?_, hfinal.trans houtbox⟩
      have hall := hplays hrest
      -- What this byte drops and what the others will drop is what all of them drop.
      have hdrops : overflow (written ++ [byte]) - overflow written +
          (overflow (written ++ byte :: second :: todo) - overflow (written ++ [byte])) =
            overflow (written ++ byte :: second :: todo) - overflow written := by
        simp only [overflow, List.length_append, List.length_cons, List.length_nil]
        omega
      rwa [List.replicate_append_replicate, hdrops] at hall

/-- **A write is played** to the outcome that its bytes call for, and leaves the queue alone. -/
theorem Padded.writes_play {address : UInt8} {bytes : List UInt8} {steps : List ScriptStep}
    (hpadded : Padded (MasterScript.writes address bytes) steps) (stance : Stance) :
    ∃ final, Plays address stance steps (List.replicate (overflow bytes) .drop)
        (writeOutcome bytes) final ∧
      final.outbox.payload = stance.transaction.outbox.payload := by
  obtain ⟨padded, hrest, hplays⟩ := Padded.start hpadded stance
  have hheader : ∀ status byte, status.isStart = false →
      stance.transaction.addressed.answer address status byte =
        (stance.transaction.addressed.accept byte .direction).proceed := by
    intro status byte hstart
    exact Transaction.answer_header rfl address status hstart byte
  cases bytes with
  | nil =>
      have hverdict : ∀ byte, (stance.transaction.addressed.answer address .stopped byte).verdict
          .stopped = some .cutShort := by
        intro byte
        rw [hheader _ _ rfl]
        rfl
      obtain ⟨byte, hlast⟩ := Padded.stopsAfter hrest address
        ⟨stance.transaction.addressed, address, address⟩ rfl hverdict
      rw [hheader _ _ rfl] at hlast
      exact ⟨_, hplays hlast, rfl⟩
  | cons header bytes =>
      cases bytes with
      | nil =>
          have hverdict : (stance.transaction.addressed.answer address .stopped header).verdict
              .stopped = some .cutShort := by
            rw [hheader _ _ rfl]
            rfl
          have hlast := Padded.writesLast hrest address
            ⟨stance.transaction.addressed, address, address⟩ rfl
            rfl hverdict
          rw [hheader _ _ rfl] at hlast
          exact ⟨_, hplays hlast, rfl⟩
      | cons second bytes =>
          obtain ⟨padded', hframe, hplays'⟩ := Padded.writesOn hrest address
            ⟨stance.transaction.addressed, address, address⟩ rfl
            rfl (by rw [hheader _ _ rfl]; rfl)
          rw [hheader _ _ rfl] at hplays'
          have hhearing :
              (stance.transaction.addressed.accept header .direction).Hearing [header] :=
            Transaction.hearing_header rfl header
          obtain ⟨final, hend, houtbox⟩ :=
            Padded.frame_plays hframe address ⟨_, header, header⟩ hhearing
          exact ⟨final, hplays (hplays' hend), by rw [houtbox]; rfl⟩

/-! ### The master reads -/

theorem Inbox.firstCell_push {inbox : Inbox} (hempty : inbox.fill = 0) (byte : UInt8) :
    (inbox.push byte).firstCell = byte := by
  rcases inbox with ⟨cells, fill, hbound⟩
  subst hempty
  change (cells.set 0 byte).get ⟨0, by decide⟩ = byte
  exact Vector.getElem_set_self (by decide)

/-- What is handed out when the master reads: the payload in the queue, or the one that asks
    nothing. -/
def offered (queued : Option Payload) : Payload := queued.getD .noop

def substitution (queued : Option Payload) : List Action :=
  if queued.isSome then [] else [.tell .nothingQueued]

/-- How a transaction ends in which the master read so many bytes of a payload. -/
def readOutcome (payload : Payload) (count : Nat) : Outcome :=
  if count = payload.bytes.length then .sent else .failed .protocolViolation

def complaint (payload : Payload) (count : Nat) : List Action :=
  if count = payload.bytes.length then [] else [.tell .earlyStop]

def unread (payload : Payload) (count : Nat) : Option Payload :=
  if count = payload.bytes.length then none else some payload

namespace Transaction

theorem turnToReading_eq {transaction : Transaction}
    (hcommand : transaction.inbox.firstCell = readCommand) :
    transaction.turnToReading =
      ⟨{ transaction with
          phase := .sending, outbox := ⟨some (offered transaction.outbox.payload), 0⟩ },
        substitution transaction.outbox.payload ++
          [.send (offered transaction.outbox.payload).sizeByte, .release], none⟩ := by
  rcases transaction with ⟨phase, inbox, ⟨queued, sent⟩⟩
  rw [turnToReading, if_pos hcommand]
  cases queued <;> rfl

theorem answer_sending {transaction : Transaction} (hphase : transaction.phase = .sending)
    (address : UInt8) {status : Status} (hstart : status.isStart = false) (byte : UInt8) :
    transaction.answer address status byte = transaction.handOut status := by
  simp [answer, hstart, react, hphase]

theorem answer_readOut {transaction : Transaction} (hphase : transaction.phase = .sending)
    {due : UInt8} (hdue : transaction.outbox.due? = some due) (address byte : UInt8) :
    transaction.answer address .readOut byte =
      ⟨{ transaction with outbox := transaction.outbox.advance }, [.send due], none⟩ := by
  rw [answer_sending hphase address rfl, handOut, hdue]
  rfl

theorem answer_stopped {transaction : Transaction} (hphase : transaction.phase = .sending)
    {payload : Payload} {taken : Nat} (houtbox : transaction.outbox = ⟨some payload, taken⟩)
    (hbound : taken ≤ payload.bytes.length) (address byte : UInt8) :
    (transaction.answer address .stopped byte).actions = complaint payload taken ∧
      (transaction.answer address .stopped byte).outcome = some (readOutcome payload taken) ∧
      (transaction.answer address .stopped byte).transaction.outbox.payload =
        unread payload taken := by
  have hstop : Status.stopped.isStop = true := rfl
  rw [answer_sending hphase address rfl, handOut, hstop]
  by_cases hall : taken = payload.bytes.length
  · have hdue : transaction.outbox.due? = none := by
      rw [houtbox]
      exact List.getElem?_eq_none (Nat.le_of_eq hall.symm)
    rw [hdue, complaint, readOutcome, unread, if_pos hall, if_pos hall, if_pos hall]
    exact ⟨rfl, rfl, rfl⟩
  · have hdue : transaction.outbox.due? = some payload.bytes[taken] := by
      rw [houtbox]
      exact List.getElem?_eq_getElem (Nat.lt_of_le_of_ne hbound hall)
    rw [hdue, complaint, readOutcome, unread, if_neg hall, if_neg hall, if_neg hall]
    exact ⟨rfl, rfl, congrArg Outbox.payload houtbox⟩

end Transaction

theorem Padded.payload_plays {count taken : Nat} {payload : Payload} {steps : List ScriptStep}
    (hpadded : Padded (List.replicate count ⟨.readOut, none⟩ ++ [⟨.stopped, none⟩]) steps)
    (address : UInt8) (stance : Stance) (hphase : stance.transaction.phase = .sending)
    (houtbox : stance.transaction.outbox = ⟨some payload, taken⟩)
    (hbound : taken + count ≤ payload.bytes.length) :
    ∃ final, Plays address stance steps
        (((payload.bytes.drop taken).take count).map .send ++ complaint payload (taken + count))
        (readOutcome payload (taken + count)) final ∧
      final.outbox.payload = unread payload (taken + count) := by
  induction count generalizing taken steps stance with
  | zero =>
      have hstopped := Transaction.answer_stopped hphase houtbox hbound address
      have hverdict : ∀ byte, (stance.transaction.answer address .stopped byte).verdict .stopped =
          some (readOutcome payload taken) := by
        intro byte
        rw [Reaction.verdict, (hstopped byte).2.1]
      obtain ⟨byte, hplays⟩ := Padded.stopsAfter hpadded address stance rfl
        hverdict
      obtain ⟨hactions, -, hunread⟩ := hstopped byte
      rw [hactions] at hplays
      exact ⟨_, hplays, hunread⟩
  | succ count ih =>
      have hless : taken < payload.bytes.length := by omega
      have hdue : stance.transaction.outbox.due? = some payload.bytes[taken] := by
        rw [houtbox]
        exact List.getElem?_eq_getElem hless
      have hanswer := Transaction.answer_readOut hphase hdue address
      obtain ⟨register, padded, hlater, hplays⟩ := Padded.readsOn hpadded address stance
        rfl (by decide) (by rw [hanswer]; rfl)
      rw [hanswer] at hplays
      have houtbox' : stance.transaction.outbox.advance = ⟨some payload, taken + 1⟩ := by
        rw [houtbox]
        rfl
      have hbound' : taken + 1 + count ≤ payload.bytes.length := by omega
      obtain ⟨final, hrest, hfinal⟩ := ih hlater
        ⟨{ stance.transaction with outbox := stance.transaction.outbox.advance }, stance.byte,
          register⟩ hphase houtbox' hbound'
      have hcount : taken + 1 + count = taken + (count + 1) := by omega
      rw [hcount] at hrest hfinal
      refine ⟨final, ?_, hfinal⟩
      have hall := hplays hrest
      rwa [← List.append_assoc, List.singleton_append, ← List.map_cons,
        ← List.take_succ_cons, List.getElem_cons_drop] at hall

/-- **A read is played** by handing out the payload behind its size, as far as the master reads. -/
theorem Padded.reads_play {address : UInt8} {count : Nat} {steps : List ScriptStep}
    (hpadded : Padded (MasterScript.reads address count) steps) (stance : Stance)
    (hbound : count ≤ (offered stance.transaction.outbox.payload).bytes.length) :
    ∃ final, Plays address stance steps
        (substitution stance.transaction.outbox.payload ++
          [.send (offered stance.transaction.outbox.payload).sizeByte, .release] ++
          (((offered stance.transaction.outbox.payload).bytes.take count).map .send ++
            complaint (offered stance.transaction.outbox.payload) count))
        (readOutcome (offered stance.transaction.outbox.payload) count) final ∧
      final.outbox.payload = unread (offered stance.transaction.outbox.payload) count := by
  obtain ⟨padded, hrest, hplays⟩ := Padded.start hpadded stance
  have hheader : stance.transaction.addressed.answer address .written readCommand =
      (stance.transaction.addressed.accept readCommand .direction).proceed :=
    Transaction.answer_header rfl address .written rfl readCommand
  obtain ⟨padded', hrest', hplays'⟩ := Padded.writesOn hrest address
    ⟨stance.transaction.addressed, address, address⟩ rfl
    rfl (by rw [hheader]; rfl)
  rw [hheader] at hplays'
  have hcommand : (stance.transaction.addressed.accept readCommand .direction).inbox.firstCell =
      readCommand := Inbox.firstCell_push rfl readCommand
  have hturn : (stance.transaction.addressed.accept readCommand .direction).answer address
      .readRequest readCommand =
        (stance.transaction.addressed.accept readCommand .direction).turnToReading := rfl
  rw [Transaction.turnToReading_eq hcommand] at hturn
  let reading : Transaction :=
    { stance.transaction.addressed.accept readCommand .direction with
      phase := .sending, outbox := ⟨some (offered stance.transaction.outbox.payload), 0⟩ }
  obtain ⟨register, padded'', hrest'', hplays''⟩ := Padded.readsOn hrest' address
    ⟨stance.transaction.addressed.accept readCommand .direction, readCommand, readCommand⟩
    rfl (by decide) (by rw [hturn]; rfl)
  rw [hturn] at hplays''
  have hbound' : 0 + count ≤ (offered stance.transaction.outbox.payload).bytes.length := by
    rw [Nat.zero_add]
    exact hbound
  obtain ⟨final, hend, hunread⟩ :=
    Padded.payload_plays hrest'' address ⟨reading, readCommand, register⟩ rfl rfl hbound'
  rw [Nat.zero_add, List.drop_zero] at hend
  rw [Nat.zero_add] at hunread
  exact ⟨final, hplays (hplays' (hplays'' hend)), hunread⟩

end EcLink
