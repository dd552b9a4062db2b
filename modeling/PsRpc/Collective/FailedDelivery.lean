import PsRpc.Collective.Roles

/-! # A collective message that cannot be copied

`RunReceiveCallback` locks the mutex and takes the next number of the rank before it copies the
payload. When `memcpy_s` refuses the size, the exception leaves both as they are: the number is
used up, and the mutex is never unlocked.
-/

namespace PsRpc

open Execution

namespace Exchange

variable {s s' : Exchange}

/-- If `RunReceiveCallback` raises, the tables that pair messages with receives are as before, the
mutex is free, and the next message of the rank meets the receive that it would have met. -/
def FailureHarmless (s : Exchange) (packet : Packet) : Prop :=
  ∀ fault, (s.tables.runReceiveCallback packet).1 = .error fault →
    (s.takePacket packet).tables.actualRankRequestIds = s.tables.actualRankRequestIds ∧
    (s.takePacket packet).tables.receivedData = s.tables.receivedData ∧
    (s.takePacket packet).tables.receiveCallbacks = s.tables.receiveCallbacks ∧
    (s.takePacket packet).loop.holdsMutex = false ∧
    ∀ next, next.rankId = packet.rankId →
      ((s.takePacket packet).tables.runReceiveCallback next).1 =
        (s.tables.runReceiveCallback next).1

def Copied (packet : Packet) : Prop :=
  0 < packet.data.length ∧ packet.data.length ≤ securecMemMaxLen

theorem runReceiveCallback_ok {t : CollectiveTables} {packet : Packet} (h : Copied packet) :
    ∃ key, (t.runReceiveCallback packet).1 = .ok key := by
  rw [CollectiveTables.runReceiveCallback_eq rfl ((memcpyS_self_eq_eok_iff _).mpr h)]
  exact ⟨_, rfl⟩

theorem runReceiveCallback_error {t : CollectiveTables} {packet : Packet} (h : ¬Copied packet) :
    t.runReceiveCallback packet =
      (.error (memcpyError (memcpyS packet.data.length packet.data.length)),
        (t.nextActualRankRequestId packet.rankId).2) :=
  if_pos (mt (memcpyS_self_eq_eok_iff _).mp h)

theorem takePacket_error {packet : Packet} (h : ¬Copied packet) :
    (s.takePacket packet).tables = (s.tables.nextActualRankRequestId packet.rankId).2 ∧
      (s.takePacket packet).loop.holdsMutex = true := by
  rw [takePacket, runReceiveCallback_error h]
  exact ⟨rfl, rfl⟩

theorem actualRankRequestIds_next_ne (t : CollectiveTables) (rankId : UInt32) :
    (t.nextActualRankRequestId rankId).2.actualRankRequestIds ≠ t.actualRankRequestIds := by
  intro hSame
  have hNext := nextRankRequestId_getD t.actualRankRequestIds rankId rankId
  rw [if_pos rfl] at hNext
  change (t.nextActualRankRequestId rankId).2.actualRankRequestIds.getD rankId 0 = _ at hNext
  rw [hSame] at hNext
  omega

/-- Once the mutex is locked for good, no run changes the tables or takes another message. -/
theorem run_of_holdsMutex {labels : List ExchangeLabel} (hLocked : s.loop.holdsMutex = true)
    (hRun : exec step s labels = some s') :
    s'.loop.holdsMutex = true ∧ s'.tables = s.tables ∧ s'.arrived = s.arrived := by
  let Stuck (s' : Exchange) : Prop :=
    s'.loop.holdsMutex = true ∧ s'.tables = s.tables ∧ s'.arrived = s.arrived
  have hStep : ∀ s₁ l s₂, Stuck s₁ → step s₁ l = some s₂ → Stuck s₂ := by
    rintro s₁ l s₂ ⟨hLoop, hTables, hArrived⟩ hStep
    obtain ⟨sent, rfl⟩ := step_of_holdsMutex hLoop hStep
    exact ⟨hLoop, hTables, hArrived⟩
  exact exec_invariant hStep ⟨hLocked, rfl, rfl⟩ hRun

def SendsCopied : ExchangeLabel → Prop
  | .send _ _ _ _ (some bytes) size =>
    0 < (bytes.take size).length ∧ (bytes.take size).length ≤ securecMemMaxLen
  | _ => True

structure Running (s : Exchange) : Prop where
  copied : ∀ packet ∈ s.sent, Copied packet
  loop : s.loop.holdsMutex = false

theorem Running.step {l : ExchangeLabel} (h : Running s) (hLabel : SendsCopied l)
    (hStep : s.step l = some s') : Running s' := by
  cases moves_of_step hStep with
  | nothing => exact h
  | send hData =>
    refine ⟨?_, h.loop⟩
    rw [List.forall_mem_append]
    refine ⟨h.copied, ?_⟩
    intro packet hPacket
    obtain rfl := List.mem_singleton.mp hPacket
    rw [Copied, hData]
    exact hLabel
  | @deliver _ packet hIdle hNext =>
    have hCopied := h.copied packet (Matched.nextPacket_mem hNext).1
    obtain ⟨key, hOk⟩ := runReceiveCallback_ok (t := s.tables) hCopied
    refine ⟨?_, ?_⟩
    · rw [takePacket_sent]
      exact h.copied
    · rw [takePacket, hOk]
      cases key with
      | none => exact h.loop
      | some key => rfl
  | runCallback => exact ⟨h.copied, rfl⟩
  | eraseCallback => exact ⟨h.copied, rfl⟩
  | receive => exact ⟨h.copied, h.loop⟩
  | waitTurn => exact ⟨h.copied, h.loop⟩

theorem Running.run {receiver : NodeView} {labels : List ExchangeLabel}
    (hLabels : ∀ l ∈ labels, SendsCopied l)
    (hRun : exec Exchange.step (.new receiver) labels = some s) : Running s :=
  exec_invariant_of_labels (fun _ _ _ hLabel h hStep => h.step hLabel hStep) hLabels
    ⟨by simp [Exchange.new], rfl⟩ hRun

end Exchange

/-- In every state and for every message, a failed delivery is harmless if and only if there is
none: the payload has from 1 to `0x7fffffff` bytes. -/
theorem failed_delivery_harmless_iff (s : Exchange) (packet : Packet) :
    s.FailureHarmless packet ↔
      0 < packet.data.length ∧ packet.data.length ≤ securecMemMaxLen := by
  constructor
  · intro hHarmless
    by_contra hNot
    have hError := Exchange.runReceiveCallback_error (t := s.tables) hNot
    have hTables := (Exchange.takePacket_error (s := s) hNot).1
    have hSame := (hHarmless _ (congrArg Prod.fst hError)).1
    rw [hTables] at hSame
    exact Exchange.actualRankRequestIds_next_ne s.tables packet.rankId hSame
  · intro hCopied fault hError
    obtain ⟨key, hOk⟩ := Exchange.runReceiveCallback_ok (t := s.tables) hCopied
    rw [hOk] at hError
    cases hError

/-- A server sends an empty message, which `CollectiveSendAsync` accepts. -/
theorem empty_message_harmful :
    ∃ s packet,
      exec Exchange.step (.new (serverAt 0)) [.send (serverAt 1) .new .server 0 (some []) 0] =
        some s ∧
      s.nextPacket (.server, 1) = some packet ∧
      (s.takePacket packet).tables.actualRankRequestIds.lookup 1 = some 1 ∧
      (s.takePacket packet).loop.holdsMutex = true ∧ ¬s.FailureHarmless packet := by
  refine ⟨_, _, rfl, rfl, rfl, rfl, ?_⟩
  intro hHarmless
  have hSame := (hHarmless _ rfl).1
  have hLookup := congrArg (AList.lookup 1) hSame
  cases hLookup

end PsRpc
