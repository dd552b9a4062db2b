import PsRpc.Node.Slot

/-! # What a slot keeps during a run

`Progress` follows the script of a call, `Tracked` relates the entry of the tracker to the number
of responses that the event loop has taken, and `Stored` says when `message_callbacks_` and
`receive_messages_` have an entry. Each is kept by every step of a slot.
-/

namespace PsRpc

/-! ## Counting modulo 2^32 -/

/-- The number of responses at which `first == second + 1` holds for the first time. -/
def needed (expected : Nat) : Nat := (expected + (2 ^ 32 - 1)) % 2 ^ 32 + 1

theorem uint32_ofNat_eq_iff {a b : Nat} :
    UInt32.ofNat a = UInt32.ofNat b ↔ a % 2 ^ 32 = b % 2 ^ 32 := by
  rw [← UInt32.toNat_inj, UInt32.toNat_ofNat', UInt32.toNat_ofNat']

theorem uint32_ofNat_succ (n : Nat) : UInt32.ofNat n + 1 = UInt32.ofNat (n + 1) :=
  (UInt32.ofNat_add n 1).symm

theorem check_iff_needed {expected counted : Nat} (h : counted < needed expected) :
    UInt32.ofNat expected = UInt32.ofNat counted + 1 ↔ counted + 1 = needed expected := by
  rw [uint32_ofNat_succ, uint32_ofNat_eq_iff]
  unfold needed at *
  omega

theorem needed_eq_self {expected : Nat} (hPos : 0 < expected) (hLt : expected < 2 ^ 32) :
    needed expected = expected := by
  unfold needed
  omega

/-! ## The messages of a call -/

def Message.isHandled (message : Message) : Bool :=
  match message.reply with
  | .handled _ => true
  | _ => false

namespace Call

def handled (call : Call) : Nat := call.sent.countP Message.isHandled

theorem handled_le_sent (call : Call) : call.handled ≤ call.sent.length := List.countP_le_length

theorem sent_split {call : Call} {k : Nat} {message : Message} (h : call.sent[k]? = some message)
    (reply : Reply) :
    ∃ before after, call.sent = before ++ message :: after ∧
      (call.setReply k reply).sent = before ++ { message with reply := reply } :: after := by
  obtain ⟨hLt, hEq⟩ := List.getElem?_eq_some_iff.mp h
  refine ⟨call.sent.take k, call.sent.drop (k + 1), ?_, ?_⟩
  · rw [← hEq, List.getElem_cons_drop, List.take_append_drop]
  · change call.sent.modify k _ = _
    rw [List.modify_eq_take_cons_drop hLt, hEq]

theorem answer_eq_some {call call' : Call} {k : Nat} {data : Bytes}
    (h : call.answer k data = some call') :
    ∃ before rankId sentData after, call.sent = before ++ ⟨rankId, sentData, .pending⟩ :: after ∧
      call' = { call with sent := before ++ ⟨rankId, sentData, .answered data⟩ :: after } := by
  rw [answer] at h
  split at h
  · next rankId sentData hk =>
    cases h
    obtain ⟨before, after, hSent, hNew⟩ := sent_split hk (.answered data)
    refine ⟨before, rankId, sentData, after, hSent, ?_⟩
    rw [← hNew]
    rfl
  · cases h

theorem response_eq_some {call : Call} {k : Nat} {rankId : UInt32} {data : Bytes}
    (h : call.response k = some (rankId, data)) :
    ∃ before sentData after, call.sent = before ++ ⟨rankId, sentData, .answered data⟩ :: after ∧
      call.setReply k (.handled data) =
        { call with sent := before ++ ⟨rankId, sentData, .handled data⟩ :: after } := by
  rw [response] at h
  split at h
  · next rankId' sentData data' hk =>
    cases h
    obtain ⟨before, after, hSent, hNew⟩ := sent_split hk (.handled data)
    refine ⟨before, sentData, after, hSent, ?_⟩
    rw [← hNew]
    rfl
  · cases h

theorem handled_answer {call call' : Call} {k : Nat} {data : Bytes}
    (h : call.answer k data = some call') : call'.handled = call.handled := by
  obtain ⟨before, rankId, sentData, after, hSent, rfl⟩ := answer_eq_some h
  rw [handled, handled, hSent, List.countP_append, List.countP_append, List.countP_cons,
    List.countP_cons]
  rfl

theorem handled_respond {call : Call} {k : Nat} {rankId : UInt32} {data : Bytes}
    (h : call.response k = some (rankId, data)) :
    (call.setReply k (.handled data)).handled = call.handled + 1 := by
  obtain ⟨before, sentData, after, hSent, hNew⟩ := response_eq_some h
  rw [hNew, handled, handled, hSent, List.countP_append, List.countP_append, List.countP_cons,
    List.countP_cons]
  rfl

theorem handled_send (call : Call) (rankId : UInt32) (data : Bytes) (todo : List Action) :
    { call with sent := call.sent ++ [Message.mk rankId data .pending], todo := todo }.handled =
      call.handled := by
  simp [handled, Message.isHandled]

theorem runClosure_eq (call : Call) (res : Table UInt32 Bytes) :
    ∃ output, call.runClosure res = { call with output := output } := by
  rw [runClosure]
  split
  · exact ⟨call.output, rfl⟩
  · exact ⟨_, rfl⟩
  · exact ⟨_, rfl⟩

theorem count_of_open {call : Call} (h : call.ended = false) :
    call.count = { call with counted := call.counted + 1 } := by
  rw [count, h, if_neg Bool.false_ne_true]

theorem count_of_ended {call : Call} (h : call.ended = true) : call.count = call := by
  rw [count, h, if_pos rfl]

theorem count_eq (call : Call) : ∃ counted, call.count = { call with counted := counted } := by
  cases h : call.ended with
  | false => exact ⟨_, count_of_open h⟩
  | true => exact ⟨_, count_of_ended h⟩

theorem runClosure_request (call : Call) (res : Table UInt32 Bytes) :
    (call.runClosure res).request = call.request := by
  obtain ⟨output, hRun⟩ := call.runClosure_eq res
  rw [hRun]

theorem runClosure_status (call : Call) (res : Table UInt32 Bytes) :
    (call.runClosure res).status = call.status := by
  obtain ⟨output, hRun⟩ := call.runClosure_eq res
  rw [hRun]

theorem runClosure_handled (call : Call) (res : Table UInt32 Bytes) :
    (call.runClosure res).handled = call.handled := by
  obtain ⟨output, hRun⟩ := call.runClosure_eq res
  rw [hRun]
  rfl

theorem count_request (call : Call) : call.count.request = call.request := by
  obtain ⟨counted, hCount⟩ := call.count_eq
  rw [hCount]

theorem rankIds_answer {call call' : Call} {k : Nat} {data : Bytes}
    (h : call.answer k data = some call') :
    call'.sent.map (·.rankId) = call.sent.map (·.rankId) := by
  obtain ⟨before, rankId, sentData, after, hSent, rfl⟩ := answer_eq_some h
  rw [hSent]
  simp

theorem rankIds_respond {call : Call} {k : Nat} {rankId : UInt32} {data : Bytes}
    (h : call.response k = some (rankId, data)) :
    (call.setReply k (.handled data)).sent.map (·.rankId) = call.sent.map (·.rankId) := by
  obtain ⟨before, sentData, after, hSent, hNew⟩ := response_eq_some h
  rw [hNew, hSent]
  simp

/-! ## Progress of the script -/

inductive Progress (call : Call) : Prop where
  | raising (fault : Fault) (todo : call.todo = [.raise fault]) (sent : call.sent = [])
      (status : call.status = .running)
  | registering (body : List Action) (todo : call.todo = .setMessageCallback :: body)
      (sent : call.sent = []) (status : call.status = .running)
      (delivers : Delivers call.request.rankIds body)
      (expected : call.request.expected = call.request.rankIds.length)
      (closure : call.request.closure ≠ none)
  | sending (rest : List UInt32) (delivers : Delivers rest call.todo)
      (sent : call.sent.map (·.rankId) ++ rest = call.request.rankIds)
      (status : call.status = .running)
      (expected : call.request.expected = call.request.rankIds.length)
      (known : ∀ rankId ∈ call.sent.map (·.rankId), rankId.toNat < 2 ^ 31)
  | waited (todo : call.todo = []) (ended : call.ended = true)
      (sent : call.sent.map (·.rankId) = call.request.rankIds)
      (expected : call.request.expected = call.request.rankIds.length)
      (known : ∀ rankId ∈ call.sent.map (·.rankId), rankId.toNat < 2 ^ 31)
  | raised (fault : Fault) (todo : call.todo = []) (status : call.status = .raised fault)
      (sent : call.sent = [] ∨ call.sent.length < call.request.expected)

theorem progress_new (request : Request) : (new request).Progress := by
  cases request.shaped with
  | raises fault script _ => exact .raising fault script rfl rfl
  | delivers body script delivers expected _ =>
    split at script
    · refine .sending request.rankIds ?_ rfl rfl expected nofun
      change Delivers _ request.script
      rwa [script]
    · next hClosure => exact .registering body script rfl rfl delivers expected hClosure

/-- The cases of `Progress` see a call through its script, its messages up to their replies, and
its status. -/
theorem Progress.congr {call call' : Call} (h : call.Progress)
    (hRequest : call'.request = call.request) (hTodo : call'.todo = call.todo)
    (hSent : call'.sent.map (·.rankId) = call.sent.map (·.rankId))
    (hStatus : call'.status = call.status) : call'.Progress := by
  have hLength : call'.sent.length = call.sent.length := by
    simpa using congrArg List.length hSent
  have hNil : call.sent = [] → call'.sent = [] := by
    intro h
    rw [h] at hLength
    exact List.length_eq_zero_iff.mp hLength
  have hEnded : call'.ended = call.ended := by rw [ended, ended, hStatus]
  cases h with
  | raising fault todo sent status =>
    exact .raising fault (hTodo.trans todo) (hNil sent) (hStatus.trans status)
  | registering body todo sent status delivers expected closure =>
    rw [← hRequest] at delivers expected closure
    exact .registering body (hTodo.trans todo) (hNil sent) (hStatus.trans status) delivers expected
      closure
  | sending rest delivers sent status expected known =>
    rw [← hRequest] at sent expected
    rw [← hSent] at sent known
    rw [← hTodo] at delivers
    exact .sending rest delivers sent (hStatus.trans status) expected known
  | waited todo isEnded sent expected known =>
    rw [← hRequest] at sent expected
    rw [← hSent] at known
    exact .waited (hTodo.trans todo) (hEnded.trans isEnded) (hSent.trans sent) expected known
  | raised fault todo status sent =>
    rw [← hRequest] at sent
    refine .raised fault (hTodo.trans todo) (hStatus.trans status) ?_
    rw [hLength]
    exact sent.imp_left hNil

theorem Progress.next {call : Call} (h : call.Progress) {action : Action} {rest : List Action}
    (hTodo : call.todo = action :: rest) :
    call.status = .running ∧
      ((∃ fault, action = .raise fault ∧ call.sent = []) ∨
        (action = .setMessageCallback ∧ call.sent = [] ∧ Delivers call.request.rankIds rest ∧
          call.request.expected = call.request.rankIds.length ∧ call.request.closure ≠ none) ∨
        ∃ left, Delivers left (action :: rest) ∧
          call.sent.map (·.rankId) ++ left = call.request.rankIds ∧
          call.request.expected = call.request.rankIds.length ∧
          ∀ rankId ∈ call.sent.map (·.rankId), rankId.toNat < 2 ^ 31) := by
  cases h with
  | raising fault todo sent status =>
    rw [hTodo] at todo
    exact ⟨status, .inl ⟨fault, (List.cons.inj todo).1, sent⟩⟩
  | registering body todo sent status delivers expected closure =>
    rw [hTodo] at todo
    obtain ⟨rfl, rfl⟩ := List.cons.inj todo
    exact ⟨status, .inr (.inl ⟨rfl, sent, delivers, expected, closure⟩)⟩
  | sending left delivers sent status expected known =>
    rw [hTodo] at delivers
    exact ⟨status, .inr (.inr ⟨left, delivers, sent, expected, known⟩)⟩
  | waited todo =>
    rw [hTodo] at todo
    cases todo
  | raised _ todo =>
    rw [hTodo] at todo
    cases todo

theorem Progress.sent_le {call : Call} (h : call.Progress) :
    call.sent.length ≤ call.request.expected := by
  cases h with
  | raising _ _ sent => rw [sent]; exact Nat.zero_le _
  | registering _ _ sent => rw [sent]; exact Nat.zero_le _
  | sending rest _ sent _ expected =>
    rw [expected, ← sent, List.length_append, List.length_map]
    exact Nat.le_add_right _ _
  | waited _ _ sent expected _ => rw [expected, ← sent, List.length_map]
  | raised _ _ _ sent =>
    rcases sent with hNil | hLt
    · rw [hNil]
      exact Nat.zero_le _
    · exact le_of_lt hLt

theorem Progress.register {call : Call} (h : call.Progress) {rest : List Action}
    (hTodo : call.todo = .setMessageCallback :: rest) : { call with todo := rest }.Progress := by
  obtain ⟨status, ⟨_, hAction, _⟩ | ⟨_, sent, delivers, expected, _⟩ | ⟨_, delivers, _⟩⟩ :=
    h.next hTodo
  · cases hAction
  · refine .sending call.request.rankIds delivers ?_ status expected ?_
    · rw [sent]
      rfl
    · rw [sent]
      nofun
  · cases delivers

theorem Progress.send {call : Call} (h : call.Progress) {rankId : UInt32} {data : Bytes}
    {rest : List Action} (hTodo : call.todo = .sendMessage rankId data :: rest) :
    Progress
      { call with sent := call.sent ++ [Message.mk rankId data .pending], todo := rest } := by
  obtain ⟨status, ⟨_, hAction, _⟩ | ⟨hAction, _⟩ | ⟨_, delivers, sent, expected, known⟩⟩ :=
    h.next hTodo
  · cases hAction
  · cases hAction
  · cases delivers with
    | @send _ rankIds _ _ hLt hRest =>
      refine .sending rankIds hRest ?_ status expected ?_
      · change (call.sent ++ [_]).map _ ++ _ = _
        rw [List.map_append, List.append_assoc]
        exact sent
      · rw [List.map_append, List.forall_mem_append]
        exact ⟨known, List.forall_mem_singleton.mpr hLt⟩

theorem Progress.raise {call : Call} (h : call.Progress) {fault : Fault} {rest : List Action}
    (hTodo : call.todo = .raise fault :: rest) :
    call.sent = [] ∨ call.sent.length < call.request.expected := by
  obtain ⟨_, ⟨_, _, sent⟩ | ⟨hAction, _⟩ | ⟨_, delivers, sent, expected, _⟩⟩ := h.next hTodo
  · exact .inl sent
  · cases hAction
  · cases delivers
    right
    rw [expected, ← sent, List.length_append, List.length_map, List.length_cons]
    omega

theorem Progress.wait {call : Call} (h : call.Progress) (hTodo : call.todo = [.wait]) (res : Bool) :
    { call with status := .waited res, todo := [] }.Progress := by
  obtain ⟨_, ⟨_, hAction, _⟩ | ⟨hAction, _⟩ | ⟨_, delivers, sent, expected, known⟩⟩ :=
    h.next hTodo
  · cases hAction
  · cases hAction
  · cases delivers
    rw [List.append_nil] at sent
    exact .waited rfl rfl sent expected known

theorem finish_eq_some {call call' : Call} (h : call.finish = some call') :
    ∃ res, call.status = .waited res ∧ call' = { call with status := .returned res } := by
  rw [finish] at h
  split at h
  · next res hStatus =>
    cases h
    exact ⟨res, hStatus, rfl⟩
  · cases h

theorem Progress.finish {call call' : Call} (h : call.Progress)
    (hFinish : call.finish = some call') :
    call'.Progress := by
  obtain ⟨res, hStatus, rfl⟩ := finish_eq_some hFinish
  cases h with
  | raising _ _ _ status => rw [hStatus] at status; cases status
  | registering _ _ _ status => rw [hStatus] at status; cases status
  | sending _ _ _ status => rw [hStatus] at status; cases status
  | waited todo _ sent expected known => exact .waited todo rfl sent expected known
  | raised _ _ status => rw [hStatus] at status; cases status

theorem Progress.of_ended {call : Call} (h : call.Progress) (hEnded : call.ended = true) :
    call.sent.map (·.rankId) = call.request.rankIds ∧
      call.request.expected = call.request.rankIds.length ∧
      ∀ rankId ∈ call.sent.map (·.rankId), rankId.toNat < 2 ^ 31 := by
  rw [ended] at hEnded
  cases h with
  | raising _ _ _ status => rw [status] at hEnded; cases hEnded
  | registering _ _ _ status => rw [status] at hEnded; cases hEnded
  | sending _ _ _ status => rw [status] at hEnded; cases hEnded
  | waited _ _ sent expected known => exact ⟨sent, expected, known⟩
  | raised _ _ status => rw [status] at hEnded; cases hEnded

theorem Progress.not_ended {call : Call} (h : call.Progress) {action : Action} {rest : List Action}
    (hTodo : call.todo = action :: rest) : call.ended = false := by
  rw [ended, (h.next hTodo).1]

end Call

/-! ## The entry of the tracker -/

def Phase.busy : Phase → Nat
  | .idle => 0
  | _ => 1

theorem Phase.idle_of_busy {phase : Phase} (h : phase.busy = 0) : phase = .idle := by
  cases phase with
  | idle => rfl
  | _ => cases h

/-- Until `Wait` returns, the entry of the tracker holds the number of responses counted. After
that, the entry is made anew by the `late` responses that are still handled. -/
structure Slot.Tracked (slot : Slot) (call : Call) : Prop where
  opened : call.ended = false →
    slot.track = some (UInt32.ofNat call.request.expected, UInt32.ofNat call.counted) ∧
      call.handled = call.counted + slot.phase.busy
  closed : call.ended = true → ∃ late, call.handled = call.counted + late + slot.phase.busy ∧
    slot.entry = (0, UInt32.ofNat late) ∧ (slot.track = none → late = 0) ∧
    (slot.phase = .idle → late = 0 → slot.track = none)

namespace Slot.Tracked

theorem congr {slot slot' : Slot} {call call' : Call} (h : slot.Tracked call)
    (hTrack : slot'.track = slot.track) (hPhase : slot'.phase.busy = slot.phase.busy)
    (hRequest : call'.request = call.request) (hCounted : call'.counted = call.counted)
    (hHandled : call'.handled = call.handled) (hEnded : call'.ended = call.ended) :
    slot'.Tracked call' := by
  have hIdle : slot'.phase = .idle → slot.phase = .idle := by
    intro hIdle
    rw [hIdle] at hPhase
    cases hOld : slot.phase with
    | idle => rfl
    | _ =>
      rw [hOld] at hPhase
      cases hPhase
  have hEntry : slot'.entry = slot.entry := by rw [entry, entry, hTrack]
  constructor
  · intro hOpen
    rw [hTrack, hRequest, hCounted, hHandled, hPhase]
    exact h.opened (hEnded.symm.trans hOpen)
  · intro hClosed
    obtain ⟨late, hLate, hZero, hNone, hFresh⟩ := h.closed (hEnded.symm.trans hClosed)
    rw [hHandled, hCounted, hPhase, hEntry, hTrack]
    exact ⟨late, hLate, hZero, hNone, fun hi => hFresh (hIdle hi)⟩

theorem touch {slot : Slot} {call : Call} (h : slot.Tracked call) {phase : Phase}
    (hPhase : phase.busy = slot.phase.busy) (hBusy : phase ≠ .idle) :
    { slot with track := some slot.entry, phase := phase }.Tracked call := by
  constructor
  · intro hOpen
    obtain ⟨hTrack, hHandled⟩ := h.opened hOpen
    rw [hHandled, ← hPhase, entry, hTrack]
    exact ⟨rfl, rfl⟩
  · intro hClosed
    obtain ⟨late, hLate, hZero, _⟩ := h.closed hClosed
    exact ⟨late, hPhase ▸ hLate, hZero, nofun, fun hIdle => absurd hIdle hBusy⟩

theorem waited {slot : Slot} {call : Call} (h : slot.Tracked call) (hOpen : call.ended = false)
    (res : Bool) :
    { slot with track := none }.Tracked { call with status := .waited res, todo := [] } := by
  constructor
  · nofun
  · intro _
    exact ⟨0, (h.opened hOpen).2, rfl, fun _ => rfl, fun _ _ => rfl⟩

theorem respond {slot : Slot} {call : Call} (h : slot.Tracked call) (hIdle : slot.phase = .idle)
    {k : Nat} {rankId : UInt32} {data : Bytes} (hResponse : call.response k = some (rankId, data))
    (received : Option (Table UInt32 Bytes)) (call' : Option Call) :
    ({ slot with received := received, call := call', phase := .stored } : Slot).Tracked
      (call.setReply k (.handled data)) := by
  constructor
  · intro hOpen
    obtain ⟨hTrack, hHandled⟩ := h.opened hOpen
    refine ⟨hTrack, ?_⟩
    rw [Call.handled_respond hResponse, hHandled, hIdle]
    rfl
  · intro hClosed
    obtain ⟨late, hLate, hZero, hNone, _⟩ := h.closed hClosed
    refine ⟨late, ?_, hZero, hNone, nofun⟩
    rw [Call.handled_respond hResponse, hLate, hIdle]
    rfl

theorem notify {slot : Slot} {call : Call} (h : slot.Tracked call) (hPhase : slot.phase = .checked)
    (call' : Option Call) :
    { slot with
      track := some (slot.entry.1, slot.entry.2 + 1), call := call', phase := .idle }.Tracked
        call.count := by
  cases hEnded : call.ended with
  | false =>
    obtain ⟨hTrack, hHandled⟩ := h.opened hEnded
    rw [Call.count_of_open hEnded]
    constructor
    · intro _
      refine ⟨?_, ?_⟩
      · rw [entry, hTrack, Option.getD_some, uint32_ofNat_succ]
      · rw [hPhase] at hHandled
        exact hHandled
    · intro hClosed
      rw [show call.ended = true from hClosed] at hEnded
      cases hEnded
  | true =>
    obtain ⟨late, hLate, hZero, _⟩ := h.closed hEnded
    rw [Call.count_of_ended hEnded]
    constructor
    · intro hOpen
      rw [hEnded] at hOpen
      cases hOpen
    · intro _
      refine ⟨late + 1, ?_, ?_, nofun, nofun⟩
      · rw [hLate, hPhase]
        rfl
      · rw [hZero, uint32_ofNat_succ]
        rfl

end Slot.Tracked

structure Slot.Regular (slot : Slot) : Prop where
  empty : slot.call = none → slot = .new
  progress : ∀ call, slot.call = some call → call.Progress
  tracked : ∀ call, slot.call = some call → slot.Tracked call

namespace Slot.Regular

theorem new : Slot.new.Regular := by
  refine ⟨fun _ => rfl, ?_, ?_⟩
  · intro call hCall
    cases hCall
  · intro call hCall
    cases hCall

theorem of_call {slot : Slot} {call : Call} (hCall : slot.call = some call)
    (hProgress : call.Progress) (hTracked : slot.Tracked call) : slot.Regular := by
  refine ⟨?_, ?_, ?_⟩
  · intro hNone
    rw [hCall] at hNone
    cases hNone
  · intro call' hCall'
    rw [hCall] at hCall'
    cases hCall'
    exact hProgress
  · intro call' hCall'
    rw [hCall] at hCall'
    cases hCall'
    exact hTracked

theorem exists_call {slot : Slot} (h : slot.Regular) (hPhase : slot.phase ≠ .idle) :
    ∃ call, slot.call = some call := by
  cases hCall : slot.call with
  | none =>
    rw [h.empty hCall] at hPhase
    exact absurd rfl hPhase
  | some call => exact ⟨call, rfl⟩

theorem handled_pos {slot : Slot} (h : slot.Regular) {call : Call} (hCall : slot.call = some call)
    (hBusy : slot.phase.busy = 1) : 0 < call.handled := by
  have hTracked := h.tracked call hCall
  cases hEnded : call.ended with
  | false =>
    have hHandled := (hTracked.opened hEnded).2
    omega
  | true =>
    obtain ⟨late, hHandled, _⟩ := hTracked.closed hEnded
    omega

theorem of_registering {slot : Slot} {call : Call} (hRegular : slot.Regular)
    (hCall : slot.call = some call) {rest : List Action}
    (hTodo : call.todo = .setMessageCallback :: rest) :
    call.status = .running ∧ call.request.closure ≠ none ∧ call.sent = [] ∧ call.handled = 0 ∧
      call.counted = 0 ∧ slot.phase = .idle := by
  have hProgress := hRegular.progress call hCall
  have hCount := ((hRegular.tracked call hCall).opened (hProgress.not_ended hTodo)).2
  obtain ⟨hStatus, ⟨_, hAction, _⟩ | ⟨_, hSent, _, _, hClosure⟩ | ⟨_, hDelivers, _⟩⟩ :=
    hProgress.next hTodo
  · cases hAction
  · have hHandled : call.handled = 0 := by
      rw [Call.handled, hSent]
      rfl
    exact ⟨hStatus, hClosure, hSent, hHandled, by omega, Phase.idle_of_busy (by omega)⟩
  · cases hDelivers

theorem counted_of_wait {slot : Slot} {call : Call} (hRegular : slot.Regular)
    (hCall : slot.call = some call) (hSmall : call.request.expected < 2 ^ 32)
    (hOpen : call.ended = false) (hEq : slot.entry.1 = slot.entry.2) :
    call.counted = call.request.expected ∧ call.handled = call.request.expected ∧
      slot.phase = .idle := by
  obtain ⟨hTrack, hHandled⟩ := (hRegular.tracked call hCall).opened hOpen
  rw [entry, hTrack] at hEq
  have hMod := uint32_ofNat_eq_iff.mp hEq
  have hSent := call.handled_le_sent
  have hLe := (hRegular.progress call hCall).sent_le
  have hCounted : call.counted = call.request.expected := by omega
  exact ⟨hCounted, by omega, Phase.idle_of_busy (by omega)⟩

theorem step {slot slot' : Slot} {event : SlotEvent} (h : slot.Regular)
    (hStep : slot.Step event slot') : slot'.Regular := by
  cases hStep with
  | begin request hCall =>
    obtain rfl := h.empty hCall
    exact of_call rfl (Call.progress_new request) ⟨fun _ => ⟨rfl, rfl⟩, nofun⟩
  | @setMessageCallback call rest hCall hTodo =>
    exact of_call rfl ((h.progress call hCall).register hTodo)
      ((h.tracked call hCall).congr rfl rfl rfl rfl rfl rfl)
  | @sendMessage call rankId data rest hCall hTodo =>
    exact of_call rfl ((h.progress call hCall).send hTodo)
      ((h.tracked call hCall).congr rfl rfl rfl rfl (call.handled_send rankId data rest) rfl)
  | @raise call fault rest hCall hTodo =>
    have hProgress := h.progress call hCall
    refine of_call rfl (.raised fault rfl rfl (hProgress.raise hTodo)) ?_
    exact (h.tracked call hCall).congr rfl rfl rfl rfl rfl (hProgress.not_ended hTodo).symm
  | @waited call res hCall hTodo hRes =>
    have hProgress := h.progress call hCall
    exact of_call rfl (hProgress.wait hTodo res)
      ((h.tracked call hCall).waited
      (hProgress.not_ended hTodo) res |>.congr rfl rfl rfl rfl rfl rfl)
  | @poll call hCall hTodo =>
    have hProgress := h.progress call hCall
    refine of_call hCall hProgress ((h.tracked call hCall).congr ?_ rfl rfl rfl rfl rfl)
    rw [entry, ((h.tracked call hCall).opened (hProgress.not_ended hTodo)).1]
    rfl
  | @finish call call' hCall hFinish =>
    refine of_call rfl ((h.progress call hCall).finish hFinish) ?_
    obtain ⟨res, hStatus, rfl⟩ := Call.finish_eq_some hFinish
    refine (h.tracked call hCall).congr rfl rfl rfl rfl rfl ?_
    rw [Call.ended, Call.ended, hStatus]
  | @answer call call' k data hCall hAnswer =>
    have hHandled := Call.handled_answer hAnswer
    have hRankIds := Call.rankIds_answer hAnswer
    obtain ⟨before, rankId, sentData, after, hSent, rfl⟩ := Call.answer_eq_some hAnswer
    exact of_call rfl ((h.progress call hCall).congr rfl rfl hRankIds rfl)
      ((h.tracked call hCall).congr rfl rfl rfl rfl hHandled rfl)
  | @respond call k rankId data hCall hPhase hResponse =>
    exact of_call rfl
      ((h.progress call hCall).congr rfl rfl (Call.rankIds_respond hResponse) rfl)
      ((h.tracked call hCall).respond hPhase hResponse _ _)
  | checkFound hPhase hCheck hCallback =>
    obtain ⟨call, hCall⟩ := h.exists_call (by rw [hPhase]; nofun)
    exact of_call hCall (h.progress call hCall)
      ((h.tracked call hCall).touch (by rw [hPhase]; rfl) nofun)
  | checkMissed hPhase hCheck =>
    obtain ⟨call, hCall⟩ := h.exists_call (by rw [hPhase]; nofun)
    exact of_call hCall (h.progress call hCall)
      ((h.tracked call hCall).touch (by rw [hPhase]; rfl) nofun)
  | @run call hPhase hCall =>
    obtain ⟨output, hRun⟩ := call.runClosure_eq (slot.received.getD ∅)
    rw [hRun]
    exact of_call rfl ((h.progress call hCall).congr rfl rfl rfl rfl)
      ((h.tracked call hCall).congr rfl (by rw [hPhase]; rfl) rfl rfl rfl rfl)
  | erase hPhase =>
    obtain ⟨call, hCall⟩ := h.exists_call (by rw [hPhase]; nofun)
    exact of_call hCall (h.progress call hCall)
      ((h.tracked call hCall).congr rfl (by rw [hPhase]; rfl) rfl rfl rfl rfl)
  | @notify call hPhase hCall =>
    refine of_call rfl ?_ ((h.tracked call hCall).notify hPhase _)
    obtain ⟨counted, hCount⟩ := call.count_eq
    rw [hCount]
    exact (h.progress call hCall).congr rfl rfl rfl rfl

end Slot.Regular

/-! ## The closure and the stored responses -/

def Call.committed (call : Call) : Bool :=
  match call.todo with
  | .sendMessage _ _ :: _ | .wait :: _ => true
  | _ => false

theorem Call.runClosure_committed (call : Call) (res : Table UInt32 Bytes) :
    (call.runClosure res).committed = call.committed := by
  obtain ⟨output, hRun⟩ := call.runClosure_eq res
  rw [hRun]
  rfl

theorem Call.not_committed_new {request : Request} (hClosure : request.closure ≠ none) :
    (Call.new request).committed = false := by
  cases request.shaped with
  | raises fault script => simp [committed, new, script]
  | delivers body script =>
    rw [if_neg hClosure] at script
    simp [committed, new, script]

theorem Call.Progress.of_committed {call : Call} (h : call.Progress)
    (hNext : call.committed = true) :
    call.ended = false ∧ ∃ rest, call.sent.map (·.rankId) ++ rest = call.request.rankIds ∧
      call.request.expected = call.request.rankIds.length := by
  rw [committed] at hNext
  cases hTodo : call.todo with
  | nil =>
    rw [hTodo] at hNext
    cases hNext
  | cons action rest =>
    refine ⟨h.not_ended hTodo, ?_⟩
    rw [hTodo] at hNext
    obtain ⟨_, ⟨_, rfl, _⟩ | ⟨rfl, _⟩ | ⟨left, _, sent, expected, _⟩⟩ := h.next hTodo
    · cases hNext
    · cases hNext
    · exact ⟨left, sent, expected⟩

/-- A call with an output between its registration and the return of its `Wait`: the closure is
stored until the last response needed, and its run takes the stored responses away. -/
def Slot.Armed (slot : Slot) (call : Call) : Prop :=
  match slot.phase with
  | .idle => (slot.callback = true ↔ call.counted < needed call.request.expected) ∧
      (slot.received = none ↔ call.counted = 0 ∨ call.counted = needed call.request.expected)
  | .stored => (slot.callback = true ↔ call.counted < needed call.request.expected) ∧
      slot.received ≠ none
  | .found => slot.callback = true ∧ call.counted + 1 = needed call.request.expected ∧
      slot.received ≠ none
  | .ran => slot.callback = true ∧ call.counted + 1 = needed call.request.expected ∧
      slot.received = none
  | .checked => (slot.callback = true ↔ call.counted + 1 < needed call.request.expected) ∧
      (slot.received = none ↔ call.counted + 1 = needed call.request.expected)

/-- Nothing takes away the responses of a call without an output; `closed` is about the time after
`Wait`, as long as no further response is handled. -/
structure Slot.Stored (slot : Slot) (call : Call) : Prop where
  unanswered : call.handled = 0 → slot.received = none
  plain : call.request.closure = none → slot.callback = false ∧ slot.phase ≠ .found ∧
    slot.phase ≠ .ran ∧ (slot.received = none → call.handled = 0)
  armed : call.request.closure ≠ none → call.committed = true → slot.Armed call
  closed : call.request.closure ≠ none → call.ended = true → slot.phase = .idle →
    call.handled = call.counted →
    (slot.callback = true ↔ call.counted < needed call.request.expected) ∧
      (slot.received = none ↔ call.counted = 0 ∨ call.counted = needed call.request.expected)

theorem Slot.Armed.congr {slot slot' : Slot} {call call' : Call} (h : slot.Armed call)
    (hCallback : slot'.callback = slot.callback) (hReceived : slot'.received = slot.received)
    (hPhase : slot'.phase = slot.phase) (hRequest : call'.request = call.request)
    (hCounted : call'.counted = call.counted) : slot'.Armed call' := by
  unfold Armed at *
  rwa [hCallback, hReceived, hPhase, hRequest, hCounted]

theorem needed_pos (expected : Nat) : 0 < needed expected := Nat.succ_pos _

theorem Slot.Armed.checkFound {slot : Slot} {call : Call} (h : slot.Armed call)
    (hTracked : slot.Tracked call) (hOpen : call.ended = false) (hPhase : slot.phase = .stored)
    (hCheck : slot.entry.1 = slot.entry.2 + 1) (hCallback : slot.callback = true) :
    { slot with track := some slot.entry, phase := .found }.Armed call := by
  rw [Armed, hPhase] at h
  rw [entry, (hTracked.opened hOpen).1] at hCheck
  exact ⟨hCallback, (check_iff_needed (h.1.mp hCallback)).mp hCheck, h.2⟩

theorem Slot.Armed.checkMissed {slot : Slot} {call : Call} (h : slot.Armed call)
    (hTracked : slot.Tracked call) (hOpen : call.ended = false) (hPhase : slot.phase = .stored)
    (hCheck : slot.entry.1 = slot.entry.2 + 1 → slot.callback = false) :
    { slot with track := some slot.entry, phase := .checked }.Armed call := by
  rw [Armed, hPhase] at h
  rw [entry, (hTracked.opened hOpen).1] at hCheck
  have hNot : call.counted + 1 ≠ needed call.request.expected := by
    intro hNeeded
    have hLt : call.counted < needed call.request.expected := by omega
    have hFalse := hCheck ((check_iff_needed hLt).mpr hNeeded)
    rw [h.1.mpr hLt] at hFalse
    cases hFalse
  refine ⟨?_, ?_⟩
  · change slot.callback = true ↔ _
    rw [h.1]
    omega
  · exact ⟨fun hNone => absurd hNone h.2, fun hNeeded => absurd hNeeded hNot⟩

namespace Slot.Stored

theorem congr {slot slot' : Slot} {call call' : Call} (h : slot.Stored call)
    (hCallback : slot'.callback = slot.callback) (hReceived : slot'.received = slot.received)
    (hPhase : slot'.phase = slot.phase) (hRequest : call'.request = call.request)
    (hCounted : call'.counted = call.counted) (hHandled : call'.handled = call.handled)
    (hCommitted : call'.committed = true → call.committed = true)
    (hEnded : call'.ended = true → call.ended = true) : slot'.Stored call' := by
  constructor
  · rw [hHandled, hReceived]
    exact h.unanswered
  · rw [hRequest, hCallback, hPhase, hReceived, hHandled]
    exact h.plain
  · rw [hRequest]
    intro hClosure hNext
    exact (h.armed hClosure (hCommitted hNext)).congr hCallback hReceived hPhase hRequest hCounted
  · rw [hRequest, hPhase, hHandled, hCounted, hCallback, hReceived]
    intro hClosure hEnd
    exact h.closed hClosure (hEnded hEnd)

theorem notify {slot : Slot} {call : Call} (h : slot.Stored call) (hRegular : slot.Regular)
    (hCall : slot.call = some call) (hPhase : slot.phase = .checked)
    (track : Option (UInt32 × UInt32)) (next : Option Call) :
    Stored { slot with track := track, call := next, phase := .idle } call.count := by
  have hPlain : call.request.closure = none → slot.callback = false ∧ Phase.idle ≠ .found ∧
      Phase.idle ≠ .ran ∧ (slot.received = none → call.handled = 0) := by
    intro hClosure
    obtain ⟨hCallback, _, _, hReceived⟩ := h.plain hClosure
    exact ⟨hCallback, nofun, nofun, hReceived⟩
  cases hEnded : call.ended with
  | false =>
    rw [Call.count_of_open hEnded]
    refine ⟨h.unanswered, hPlain, ?_, ?_⟩
    · intro hClosure hNext
      have hArmed := h.armed hClosure hNext
      rw [Armed, hPhase] at hArmed
      refine ⟨hArmed.1, ?_⟩
      change slot.received = none ↔ _
      rw [hArmed.2]
      exact ⟨.inr, fun hOr => hOr.resolve_left nofun⟩
    · intro _ hClosed
      rw [show call.ended = true from hClosed] at hEnded
      cases hEnded
  | true =>
    rw [Call.count_of_ended hEnded]
    refine ⟨h.unanswered, hPlain, ?_, ?_⟩
    · intro _ hNext
      rw [((hRegular.progress call hCall).of_committed hNext).1] at hEnded
      cases hEnded
    · -- the response just counted came after `Wait`, so the two numbers differ
      intro _ _ _ hHandled
      obtain ⟨late, hLate, _⟩ := (hRegular.tracked call hCall).closed hEnded
      rw [hPhase] at hLate
      change call.handled = call.counted + late + 1 at hLate
      omega

theorem step {slot slot' : Slot} {event : SlotEvent} {call' : Call} (hRegular : slot.Regular)
    (h : ∀ call, slot.call = some call → slot.Stored call) (hStep : slot.Step event slot')
    (hCall' : slot'.call = some call') : slot'.Stored call' := by
  cases hStep with
  | begin request hCall =>
    obtain rfl := hRegular.empty hCall
    cases hCall'
    refine ⟨fun _ => rfl, fun _ => ⟨rfl, nofun, nofun, fun _ => rfl⟩, ?_, nofun⟩
    intro hClosure hNext
    exact absurd hNext (Bool.eq_false_iff.mp (Call.not_committed_new hClosure))
  | @setMessageCallback call rest hCall hTodo =>
    cases hCall'
    obtain ⟨hStatus, hClosure, _, hHandled, hCounted, hIdle⟩ := hRegular.of_registering hCall hTodo
    have hReceived := (h call hCall).unanswered hHandled
    refine ⟨fun _ => hReceived, fun hNone => absurd hNone hClosure, ?_, ?_⟩
    · intro _ _
      simp only [Armed, hIdle, hCounted, hReceived, needed_pos, true_or, and_self]
    · intro _ hEnded
      rw [Call.ended, hStatus] at hEnded
      cases hEnded
  | @sendMessage call rankId data rest hCall hTodo =>
    cases hCall'
    refine (h call hCall).congr rfl rfl rfl rfl rfl (call.handled_send rankId data rest) ?_ id
    intro _
    rw [Call.committed, hTodo]
  | @raise call fault rest hCall hTodo =>
    cases hCall'
    exact (h call hCall).congr rfl rfl rfl rfl rfl rfl nofun nofun
  | @waited call res hCall hTodo hRes =>
    cases hCall'
    have hStored := h call hCall
    refine ⟨hStored.unanswered, hStored.plain, nofun, ?_⟩
    intro hClosure _ hIdle _
    have hArmed := hStored.armed hClosure (by rw [Call.committed, hTodo])
    rw [Armed, show slot.phase = .idle from hIdle] at hArmed
    exact hArmed
  | @poll call hCall hTodo =>
    exact (h call' hCall').congr rfl rfl rfl rfl rfl rfl id id
  | @finish call call' hCall hFinish =>
    cases hCall'
    obtain ⟨res, hStatus, rfl⟩ := Call.finish_eq_some hFinish
    refine (h call hCall).congr rfl rfl rfl rfl rfl rfl id ?_
    intro _
    rw [Call.ended, hStatus]
  | @answer call call' k data hCall hAnswer =>
    cases hCall'
    have hHandled := Call.handled_answer hAnswer
    obtain ⟨before, rankId, sentData, after, hSent, rfl⟩ := Call.answer_eq_some hAnswer
    exact (h call hCall).congr rfl rfl rfl rfl rfl hHandled id id
  | @respond call k rankId data hCall hPhase hResponse =>
    cases hCall'
    have hStored := h call hCall
    have hHandled := Call.handled_respond hResponse
    refine ⟨?_, ?_, ?_, nofun⟩
    · intro hZero
      omega
    · intro hClosure
      exact ⟨(hStored.plain hClosure).1, nofun, nofun, nofun⟩
    · intro hClosure hNext
      have hArmed := hStored.armed hClosure hNext
      rw [Armed, hPhase] at hArmed
      exact ⟨hArmed.1, nofun⟩
  | checkFound hPhase hCheck hCallback =>
    have hStored := h call' hCall'
    refine ⟨hStored.unanswered, ?_, ?_, nofun⟩
    · intro hClosure
      rw [(hStored.plain hClosure).1] at hCallback
      cases hCallback
    · intro hClosure hNext
      exact (hStored.armed hClosure hNext).checkFound (hRegular.tracked call' hCall')
        ((hRegular.progress call' hCall').of_committed hNext).1 hPhase hCheck hCallback
  | checkMissed hPhase hCheck =>
    have hStored := h call' hCall'
    refine ⟨hStored.unanswered, ?_, ?_, nofun⟩
    · intro hClosure
      obtain ⟨hCallback, _, _, hReceived⟩ := hStored.plain hClosure
      exact ⟨hCallback, nofun, nofun, hReceived⟩
    · intro hClosure hNext
      exact (hStored.armed hClosure hNext).checkMissed (hRegular.tracked call' hCall')
        ((hRegular.progress call' hCall').of_committed hNext).1 hPhase hCheck
  | @run call hPhase hCall =>
    cases hCall'
    have hStored := h call hCall
    obtain ⟨output, hRun⟩ := call.runClosure_eq (slot.received.getD ∅)
    rw [hRun]
    refine ⟨fun _ => rfl, ?_, ?_, nofun⟩
    · intro hClosure
      exact absurd hPhase (hStored.plain hClosure).2.1
    · intro hClosure hNext
      have hArmed := hStored.armed hClosure hNext
      rw [Armed, hPhase] at hArmed
      exact ⟨hArmed.1, hArmed.2.1, rfl⟩
  | erase hPhase =>
    have hStored := h call' hCall'
    refine ⟨hStored.unanswered, ?_, ?_, nofun⟩
    · intro hClosure
      exact absurd hPhase (hStored.plain hClosure).2.2.1
    · intro hClosure hNext
      have hArmed := hStored.armed hClosure hNext
      rw [Armed, hPhase] at hArmed
      obtain ⟨_, hNeeded, hReceived⟩ := hArmed
      refine ⟨⟨nofun, fun hLt => ?_⟩, fun _ => hNeeded, fun _ => hReceived⟩
      omega
  | @notify call hPhase hCall =>
    cases hCall'
    exact (h call hCall).notify hRegular hCall hPhase _ _

end Slot.Stored

structure Slot.Kept (slot : Slot) : Prop where
  regular : slot.Regular
  stored : ∀ call, slot.call = some call → slot.Stored call

theorem Slot.Kept.new : Slot.new.Kept := by
  refine ⟨.new, ?_⟩
  intro call hCall
  cases hCall

theorem Slot.Kept.step {slot slot' : Slot} {event : SlotEvent} (h : slot.Kept)
    (hStep : slot.Step event slot') : slot'.Kept :=
  ⟨h.regular.step hStep, fun _ hCall => Stored.step h.regular h.stored hStep hCall⟩

/-- What the steps keep about the calls of the requests in `Q` holds in every run. -/
theorem NodeState.exec_kept {Q : Request → Prop} {P : Slot → Call → Prop}
    (hStep : ∀ {slot slot' : Slot} {event : SlotEvent} {call' : Call}, slot.Kept →
      (∀ call, slot.call = some call → Q call.request → P slot call) → slot.Step event slot' →
      slot'.call = some call' → Q call'.request → P slot' call')
    {labels : List Label} {s : NodeState}
    (hRun : Execution.exec NodeState.step .new labels = some s)
    (id : Nat) :
    (s.view id).Kept ∧
      ∀ call, (s.view id).call = some call → Q call.request → P (s.view id) call := by
  refine NodeState.exec_slots_all (P := fun slot => slot.Kept ∧
    ∀ call, slot.call = some call → Q call.request → P slot call) ?_ ?_ hRun id
  · refine ⟨.new, ?_⟩
    intro call hCall
    cases hCall
  · rintro slot event slot' ⟨hKept, h⟩ hMove
    exact ⟨hKept.step hMove, fun call' hCall' => hStep hKept h hMove hCall'⟩

end PsRpc
