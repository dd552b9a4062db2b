import PsRpc.Collective.Fifo
import PsRpc.Node.Server
import PsRpc.Wire.TcpLink

/-! # Collective messages, byte by byte

Each sender has a connection of its own to the server, on which its messages are frames. The server
reads a connection in pieces that need not end where a message ends, and its event loop takes what a
frame says. Every run on the bytes is a run of `Exchange`.
-/

namespace PsRpc

open Execution ByteOrder Lanes

/-- What `RunReceiveCallback` gets for a message with `COLLECTIVE_SEND_DATA`. -/
def packetItem (delivered : Delivered WireMeta) : Option Packet :=
  if delivered.message.cmd = .ofNat NodeCommand.collectiveSendData.number then
    some (delivered.message.packet delivered.data)
  else none

/-- `exchange` is the server, with the messages that were sent to it and those that its event loop
has taken. The echo of `ProcessCollectiveSendData` is not followed. -/
structure WireExchange where
  exchange : Exchange
  channels : NodeRole × UInt32 → Channel

/-- `read` is a read event of the connection of `sender`, with `count` bytes or what is there. -/
inductive WireExchangeLabel where
  | exchange (label : ExchangeLabel)
  | read (sender : NodeRole × UInt32) (count : Nat)

namespace WireExchange

def new (receiver : NodeView) (junk : NodeRole × UInt32 → Vector UInt8 kHeaderLen) : WireExchange :=
  ⟨.new receiver, fun sender => .new (junk sender)⟩

def setChannel (w : WireExchange) (sender : NodeRole × UInt32) (channel : Channel) : WireExchange :=
  { w with channels := fun other => if other = sender then channel else w.channels other }

/-- `SendMessage` with `Protos::RAW` on the connection of the sender. -/
def write (endian : Endian) (codec : MetaRuntime) (w : WireExchange) (packet : Packet) :
    Option WireExchange :=
  ((w.channels packet.sender).send endian .client codec .raw packet.messageMeta.toWire
    packet.data).toOption.map fun channel =>
      { w.setChannel packet.sender channel with
        exchange := { w.exchange with sent := w.exchange.sent ++ [packet] } }

def step (endian : Endian) (codec : MetaRuntime) (w : WireExchange) :
    WireExchangeLabel → Option WireExchange
  | .exchange (.send sender tracker nodeRole rankId data size) =>
    match collectiveSendAsync sender tracker nodeRole rankId data size with
    | .error _ => some w
    | .ok (_, packet, _) =>
      if rankId = w.exchange.receiver.rankId then w.write endian codec packet else some w
  | .exchange (.deliver sender) =>
    if w.exchange.loop = .idle then
      ((w.channels sender).next codec).bind fun call =>
        (packetItem call.1).map fun packet =>
          { w.setChannel sender call.2 with exchange := w.exchange.takePacket packet }
    else none
  | .exchange label => (w.exchange.step label).map fun exchange => { w with exchange := exchange }
  | .read sender count =>
    ((w.channels sender).read endian count).toOption.map (w.setChannel sender)

/-- The senders are servers, the payloads are not too long, and the request ids are such that the
field of the meta can hold them. -/
def Fits (w : WireExchange) : WireExchangeLabel → Prop
  | .exchange label => w.exchange.collective label ∧
    match label with
    | .send _ tracker _ _ _ _ => tracker.nextRequestId + 1 < 2 ^ 64
    | _ => True
  | .read _ _ => True

instance (w : WireExchange) : (label : WireExchangeLabel) → Decidable (w.Fits label)
  | .exchange (.send _ _ _ _ _ _) => inferInstanceAs (Decidable (_ ∧ _))
  | .exchange (.deliver _) => inferInstanceAs (Decidable (_ ∧ True))
  | .exchange .runCallback => inferInstanceAs (Decidable (_ ∧ True))
  | .exchange .eraseCallback => inferInstanceAs (Decidable (_ ∧ True))
  | .exchange (.receive _ _ _) => inferInstanceAs (Decidable (_ ∧ True))
  | .exchange (.waitTurn _ _) => inferInstanceAs (Decidable (_ ∧ True))
  | .read _ _ => isTrue trivial

def underway (s : Exchange) (sender : NodeRole × UInt32) : List Packet :=
  (lane Packet.sender id sender s.sent).drop (lane Packet.sender id sender s.arrived).length

/-- Each connection holds the messages of its sender that are underway. -/
def Conveys (endian : Endian) (codec : MetaRuntime) (w : WireExchange) : Prop :=
  ∀ sender, (w.channels sender).Conveys codec endian packetItem (underway w.exchange sender)

variable {endian : Endian} {codec : MetaRuntime} {w w' : WireExchange}

theorem conveys_new (endian : Endian) (codec : MetaRuntime) (receiver : NodeView)
    (junk : NodeRole × UInt32 → Vector UInt8 kHeaderLen) :
    (new receiver junk).Conveys endian codec :=
  fun sender => Channel.conveys_new (junk sender)

theorem Conveys.setChannel (h : w.Conveys endian codec) {sender : NodeRole × UInt32}
    {channel : Channel}
    {exchange : Exchange}
    (hSender : channel.Conveys codec endian packetItem (underway exchange sender))
    (hOthers : ∀ other, other ≠ sender → underway exchange other = underway w.exchange other) :
    Conveys endian codec { w.setChannel sender channel with exchange := exchange } := by
  intro other
  change (if other = sender then channel else w.channels other).Conveys _ _ _ _
  split
  · next hSame =>
    subst hSame
    exact hSender
  · next hOther =>
    change (w.channels other).Conveys _ _ _ (underway exchange other)
    rw [hOthers other hOther]
    exact h other

def collectiveMeta (requestId : Nat) (rankId : UInt32) : MessageMeta :=
  ⟨.collectiveSendData, requestId, .server, rankId, 0⟩

theorem packetItem_toWire {packet : Packet} {requestId : Nat} {rankId : UInt32}
    (hMeta : packet.messageMeta = collectiveMeta requestId rankId) (hId : requestId < 2 ^ 64)
    {delivered : Delivered WireMeta} (hMessage : delivered.message = packet.messageMeta.toWire)
    (hData : delivered.data = packet.data) : packetItem delivered = some packet := by
  obtain ⟨messageMeta, data⟩ := packet
  obtain rfl : messageMeta = collectiveMeta requestId rankId := hMeta
  have hCmd : delivered.message.cmd = .ofNat NodeCommand.collectiveSendData.number := by
    rw [hMessage]
    rfl
  have hPacket : (collectiveMeta requestId rankId).toWire.packet data =
      ⟨collectiveMeta (UInt64.ofNat requestId).toNat rankId, data⟩ := rfl
  rw [packetItem, if_pos hCmd, hMessage, hData]
  change some ((collectiveMeta requestId rankId).toWire.packet data) = _
  rw [hPacket, UInt64.toNat_ofNat_of_lt' hId]

theorem collectiveSendAsync_meta {view : NodeView} {tracker tracker' : MessageTracker}
    {nodeRole : NodeRole} {rankId : UInt32} {data : DataPtr} {size id : Nat} {packet : Packet}
    (h : collectiveSendAsync view tracker nodeRole rankId data size = .ok (id, packet, tracker'))
    (hRole : view.role = .server) :
    packet.messageMeta = collectiveMeta (tracker.nextRequestId + 1) view.rankId := by
  cases data with
  | none => cases h
  | some bytes =>
    obtain ⟨_, _, h⟩ := bind_eq_ok h
    split at h
    · obtain ⟨_, _, h⟩ := bind_eq_ok h
      cases h
      rw [collectiveMeta, ← hRole]
      rfl
    · cases h

theorem Conveys.write (h : w.Conveys endian codec) (hMatched : w.exchange.Matched) {packet : Packet}
    {requestId : Nat} {rankId : UInt32}
    (hMeta : packet.messageMeta = collectiveMeta requestId rankId) (hId : requestId < 2 ^ 64)
    (hSize : packet.data.length ≤ securecMemMaxLen) :
    ∃ w', w.write endian codec packet = some w' ∧
      w'.exchange = { w.exchange with sent := w.exchange.sent ++ [packet] } ∧
      w'.Conveys endian codec := by
  have hCmd : packet.messageMeta.toWire.cmd ≠ 0 := by
    rw [hMeta]
    exact (by decide : Int32.ofNat NodeCommand.collectiveSendData.number ≠ 0)
  have hLength : (codec.serializeAsString packet.messageMeta.toWire).length + packet.data.length <
      2 ^ 63 := by
    have hMetaLength := codec.length_lt packet.messageMeta.toWire
    rw [securecMemMaxLen] at hSize
    omega
  have hItem : packetItem
      (codec.outgoing packet.messageMeta.toWire .raw packet.data hCmd hLength).delivered =
        some packet :=
    packetItem_toWire hMeta hId rfl rfl
  obtain ⟨channel, hSend, hChannel⟩ := (h packet.sender).send .client hItem
  refine ⟨_, congrArg (Option.map _) (congrArg Except.toOption hSend), rfl, h.setChannel ?_ ?_⟩
  · have hArrived := (hMatched.fifo packet.sender).length_le
    change channel.Conveys _ _ _
      ((lane Packet.sender id packet.sender (w.exchange.sent ++ [packet])).drop _)
    rw [lane_snoc, if_pos rfl, List.drop_append_of_le_length hArrived]
    exact hChannel
  · intro other hOther
    change (lane Packet.sender id other (w.exchange.sent ++ [packet])).drop _ = _
    rw [lane_snoc, if_neg (Ne.symm hOther)]
    rfl

theorem takePacket_arrived (s : Exchange) (packet : Packet) :
    (s.takePacket packet).arrived = s.arrived ++ [packet] := by
  rw [Exchange.takePacket]
  dsimp only
  split <;> rfl

theorem Conveys.deliver (h : w.Conveys endian codec) {sender : NodeRole × UInt32} {packet : Packet}
    {delivered : Delivered WireMeta} {channel : Channel}
    (hNext : (w.channels sender).next codec = some (delivered, channel))
    (hItem : packetItem delivered = some packet) :
    w.exchange.nextPacket sender = some packet ∧
      Conveys endian codec
        { w.setChannel sender channel with exchange := w.exchange.takePacket packet } := by
  obtain ⟨first, rest, hQueue, hFirst, hRest⟩ := (h sender).of_next hNext
  cases hItem.symm.trans hFirst
  have hGet : (lane Packet.sender id sender w.exchange.sent)[
      (lane Packet.sender id sender w.exchange.arrived).length]? = some packet := by
    rw [← List.head?_drop]
    change (underway w.exchange sender).head? = _
    rw [hQueue]
    rfl
  have hKey : packet.sender = sender := by
    obtain ⟨_, _, hKey, rfl⟩ := mem_lane.mp (List.mem_of_getElem? hGet)
    exact hKey
  refine ⟨hGet, h.setChannel ?_ ?_⟩
  · rw [underway, Exchange.takePacket_sent, takePacket_arrived, lane_snoc, if_pos hKey,
      List.length_append, ← List.drop_drop]
    change channel.Conveys _ _ _ ((underway w.exchange sender).drop 1)
    rw [hQueue]
    exact hRest
  · intro other hOther
    rw [underway, Exchange.takePacket_sent, takePacket_arrived, lane_snoc,
      if_neg (fun hSame => hOther (hSame.symm.trans hKey))]
    rfl

/-- What the simulation keeps: the connections hold what is underway, and the server has matched the
messages that it has taken. -/
structure Follows (endian : Endian) (codec : MetaRuntime) (w : WireExchange) (s : Exchange) :
    Prop where
  exchange : w.exchange = s
  conveys : w.Conveys endian codec
  matched : s.Matched
  servers : s.FromServers

theorem follows_new (endian : Endian) (codec : MetaRuntime) (receiver : NodeView)
    (junk : NodeRole × UInt32 → Vector UInt8 kHeaderLen) :
    (new receiver junk).Follows endian codec (.new receiver) :=
  ⟨rfl, conveys_new endian codec receiver junk, .new receiver, by rintro packet ⟨⟩⟩

theorem Follows.of_step {s s' : Exchange} (h : w.Follows endian codec s) {label : ExchangeLabel}
    (hCollective : s.collective label) (hStep : s.step label = some s')
    (hExchange : w'.exchange = s')
    (hConveys : w'.Conveys endian codec) :
    ∃ labels s', exec (restrict Exchange.collective Exchange.step) s labels = some s' ∧
      w'.Follows endian codec s' :=
  ⟨[label], s', exec_restrict_cons hCollective hStep rfl, hExchange, hConveys,
    h.matched.step hCollective.1 hStep, h.servers.step hCollective.2 hStep⟩

theorem Follows.of_inside {s : Exchange} (h : w.Follows endian codec s) {label : ExchangeLabel}
    (hCollective : s.collective label)
    (hStep : (w.exchange.step label).map (fun exchange => { w with exchange := exchange }) =
      some w')
    (hKept : ∀ s', s.step label = some s' → s'.sent = s.sent ∧ s'.arrived = s.arrived) :
    ∃ labels s', exec (restrict Exchange.collective Exchange.step) s labels = some s' ∧
      w'.Follows endian codec s' := by
  obtain ⟨s', hInside, rfl⟩ := Option.map_eq_some_iff.mp hStep
  rw [h.exchange] at hInside
  obtain ⟨hSent, hArrived⟩ := hKept s' hInside
  refine h.of_step hCollective hInside rfl ?_
  intro sender
  change (w.channels sender).Conveys _ _ _ (underway s' sender)
  rw [underway, hSent, hArrived, ← h.exchange]
  exact h.conveys sender

theorem Follows.send {s : Exchange} (h : w.Follows endian codec s) {sender : NodeView}
    {tracker : MessageTracker} {nodeRole : NodeRole} {rankId : UInt32} {data : DataPtr} {size : Nat}
    (hFits : w.Fits (.exchange (.send sender tracker nodeRole rankId data size)))
    (hStep : w.step endian codec (.exchange (.send sender tracker nodeRole rankId data size)) =
      some w') :
    ∃ labels s', exec (restrict Exchange.collective Exchange.step) s labels = some s' ∧
      w'.Follows endian codec s' := by
  obtain ⟨hCollective, hId⟩ := hFits
  rw [h.exchange] at hCollective
  have hRole : sender.role = .server := of_decide_eq_true hCollective.2
  rw [WireExchange.step, h.exchange] at hStep
  split at hStep
  · next hError =>
    cases hStep
    refine h.of_step hCollective ?_ h.exchange h.conveys
    rw [Exchange.step, hError]
  · next id packet tracker' hSend =>
    obtain ⟨bytes, rfl, hData, _⟩ := collectiveSendAsync_ok hSend
    have hSize : packet.data.length ≤ securecMemMaxLen := by
      have hRegular := hCollective.1
      rw [Exchange.regular, Bool.and_eq_true, decide_eq_true_iff, decide_eq_true_iff,
        ← hData] at hRegular
      exact hRegular.2
    split at hStep
    · next hRank =>
      obtain ⟨next, hWrite, hExchange, hConveys⟩ := h.conveys.write (h.exchange ▸ h.matched)
        (collectiveSendAsync_meta hSend hRole) hId hSize
      cases hWrite.symm.trans hStep
      rw [h.exchange] at hExchange
      refine h.of_step hCollective ?_ hExchange hConveys
      rw [Exchange.step, hSend]
      exact if_pos hRank
    · next hRank =>
      cases hStep
      refine h.of_step hCollective ?_ h.exchange h.conveys
      rw [Exchange.step, hSend]
      exact if_neg hRank

theorem Follows.step {s : Exchange} (h : w.Follows endian codec s) {label : WireExchangeLabel}
    (hMove : restrict Fits (step endian codec) w label = some w') :
    ∃ labels s', exec (restrict Exchange.collective Exchange.step) s labels = some s' ∧
      w'.Follows endian codec s' := by
  obtain ⟨hFits, hStep⟩ := restrict_eq_some.mp hMove
  cases label with
  | read sender count =>
    obtain ⟨channel, hRead, _, hChannel⟩ := (h.conveys sender).read count
    rw [WireExchange.step, hRead] at hStep
    cases hStep
    exact ⟨[], s, rfl, h.exchange, h.conveys.setChannel hChannel fun _ _ => rfl, h.matched,
      h.servers⟩
  | exchange label =>
    have hCollective := hFits.1
    rw [h.exchange] at hCollective
    cases label with
    | send sender tracker nodeRole rankId data size => exact h.send hFits hStep
    | deliver sender =>
      rw [WireExchange.step] at hStep
      split at hStep
      · next hIdle =>
        obtain ⟨call, hNext, hTake⟩ := Option.bind_eq_some_iff.mp hStep
        obtain ⟨packet, hItem, rfl⟩ := Option.map_eq_some_iff.mp hTake
        obtain ⟨hPacket, hConveys⟩ := h.conveys.deliver hNext hItem
        rw [h.exchange] at hIdle hPacket
        refine h.of_step hCollective ?_
          (congrArg (Exchange.takePacket · packet) h.exchange) hConveys
        rw [Exchange.step, if_pos hIdle, hPacket]
        rfl
      · cases hStep
    | runCallback =>
      refine h.of_inside hCollective hStep ?_
      intro s' hInside
      cases Exchange.moves_of_step hInside with
      | nothing => exact ⟨rfl, rfl⟩
      | runCallback => exact ⟨rfl, rfl⟩
    | eraseCallback =>
      refine h.of_inside hCollective hStep ?_
      intro s' hInside
      cases Exchange.moves_of_step hInside with
      | nothing => exact ⟨rfl, rfl⟩
      | eraseCallback => exact ⟨rfl, rfl⟩
    | receive nodeRole rankId output =>
      refine h.of_inside hCollective hStep ?_
      intro s' hInside
      cases Exchange.moves_of_step hInside with
      | nothing => exact ⟨rfl, rfl⟩
      | receive => exact ⟨rfl, rfl⟩
    | waitTurn requestId timedOut =>
      refine h.of_inside hCollective hStep ?_
      intro s' hInside
      cases Exchange.moves_of_step hInside with
      | nothing => exact ⟨rfl, rfl⟩
      | waitTurn => exact ⟨rfl, rfl⟩

end WireExchange

end PsRpc
