import Rssip.Endpoint.Peer
import Rssip.Transport.Decode

namespace Rssip

open Lib

/-!
# Datagrams

A UDP transport reads datagrams into a buffer of 4000 bytes.  Keep-alives are answered, or passed
over, and everything else is passed on, without what did not fit into the buffer.

* `UdpTransport.receiveDatagram` — one pass of the loop that reads the socket;
* `UdpTransport.party` — transports with a network between them;
* `SipMessage.shortened` — a message without the last bytes of its body;
* `parse_take` — what is read of a text that is cut in its body;
* `UdpTransport.run_reads` — what comes out of a network of UDP transports.
-/

/-- The length of the buffer. -/
def datagramCapacity : Nat := 4000

/-- A UDP socket with the loop that reads it: whether the loop has ended, the datagrams that were
    sent, and the packets that were passed on. -/
structure UdpTransport where
  localAddr : SocketAddr
  ended : Bool := false
  sent : List Bytes := []
  passed : List TransportMessage := []

/-- What happens to a transport apart from the arrival of datagrams: somebody sends over it, or a
    read fails. -/
inductive UdpEvent where
  | sendMsg (buf : Bytes)
  | recvError

namespace UdpTransport

/-- A socket as a transport. -/
def handle (u : UdpTransport) : TransportHandle where
  protocol := .udp
  localAddr := u.localAddr
  isReliable := false
  isSecure := false

/-- A datagram is handed to the network. -/
def sendTo (buf : Bytes) (u : UdpTransport) : UdpTransport := { u with sent := u.sent ++ [buf] }

/-- A packet is passed on to the endpoint. -/
def receiveMessage (packet : Packet) (u : UdpTransport) : UdpTransport :=
  { u with passed := u.passed ++ [⟨u.handle, packet⟩] }

/-- One pass of the loop in `receive_datagram`.  Whether the answer to a keep-alive could be sent
    does not matter. -/
def receiveDatagram (source : SocketAddr) (data : Bytes) (u : UdpTransport) : UdpTransport :=
  if u.ended then u
  else
    -- what is behind the end of the buffer is lost
    let datagram := data.take datagramCapacity
    if datagram.length = 0 then u
    else if datagram = keepaliveRequest then u.sendTo keepaliveResponse
    else if datagram = keepaliveResponse then u
    else u.receiveMessage ⟨datagram, source⟩

/-- A datagram is sent or received, or the socket fails. -/
def step (u : UdpTransport) : UdpEvent → UdpTransport
  | .sendMsg buf => u.sendTo buf
  | .recvError => { u with ended := true }

/-- A transport in a network that delivers datagrams with any source address. -/
def party : Party UdpTransport UdpEvent SocketAddr Bytes := ⟨step, receiveDatagram, sent⟩

end UdpTransport

/-- A datagram that the loop does not pass on. -/
def IsKeepalive (datagram : Bytes) : Prop :=
  datagram = [] ∨ datagram = keepaliveRequest ∨ datagram = keepaliveResponse

instance : DecidablePred IsKeepalive := fun datagram =>
  inferInstanceAs (Decidable (datagram = [] ∨ _ ∨ _))

/-! ### Texts that are cut -/

/-- What is read of a message whose text has lost its last bytes: the body is shorter than its
    `Content-Length` says. -/
def SipMessage.shortened (m : SipMessage) (lost : Nat) : SipMessage :=
  (m.setHeaders (m.headers ++ [.contentLength ⟨UInt32.ofNat m.bodyBytes.length⟩])).setBody
    (if m.hasContentType then some (m.bodyBytes.take (m.bodyBytes.length - lost)) else none)

theorem SipMessage.shortened_zero (m : SipMessage) : m.shortened 0 = m.withContentLength := by
  rw [shortened, withContentLength, Nat.sub_zero, List.take_length]

namespace SipParser

/-- **A text that is cut in its body** is read as the message without the end of the body. -/
theorem parse_take {m : SipMessage} (hwf : m.WellFormed) {text : Bytes} (h : encode m = some text)
    {n : Nat} (hcut : text.length - n ≤ m.bodyBytes.length) :
    parse (text.take n) = .ok (m.shortened (text.length - n)) := by
  obtain ⟨ls, hls, hheaders, htype⟩ :=
    Header.ReadBack.lines fun h hh => (hwf.headers h hh).readBack
  have hread : ∀ l ∈ ls ++ [contentLengthLine m.bodyBytes.length], l.Reads :=
    List.forall_mem_append.mpr ⟨reads_of_forall₂ hls,
      List.forall_mem_singleton.mpr (contentLengthLine_reads hwf.length)⟩
  let kept := m.bodyBytes.take (m.bodyBytes.length - (text.length - n))
  -- the head of the text is whole
  have htext : text.take n = asBytes (m.startLine ++ "\r\n") ++
      (linesBytes (ls ++ [contentLengthLine m.bodyBytes.length]) ++ ([13, 10] ++ kept)) := by
    obtain ⟨head, hhead⟩ : ∃ head, head = asBytes (m.startLine ++ "\r\n") ++
      (linesBytes (ls ++ [contentLengthLine m.bodyBytes.length]) ++ [13, 10]) := ⟨_, rfl⟩
    obtain rfl : text = head ++ m.bodyBytes := by
      rw [encode_eq hls, Option.some.injEq] at h
      simp [← h, hhead]
    have hkept : m.bodyBytes.take (n - head.length) = kept := by
      rw [List.take_eq_take_iff, List.length_append]
      omega
    rw [List.length_append] at hcut
    rw [List.take_append, List.take_of_length_le (by omega), hkept]
    simp [hhead]
  have hstops : m.hasContentType → Stops isNewline kept := by
    intro htype b hb
    rw [List.head?_take] at hb
    split at hb
    · cases hb
    · exact hwf.body htype b hb
  rw [htext, parse_of_lines (by simp) (fun _ => reads_parseStartLine hwf.startLine) hread]
  have hfound : (ls ++ [contentLengthLine m.bodyBytes.length]).any Line.isContentType =
      m.hasContentType := by
    rw [List.any_append, htype]
    simp [contentLengthLine, SipMessage.hasContentType]
  rw [hfound, List.flatMap_append, hheaders, readMessage, SipMessage.shortened]
  by_cases hcontent : m.hasContentType
  · rw [if_pos hcontent, if_pos hcontent, (hstops hcontent).dropWhile_eq]
    cases m <;> rfl
  · rw [if_neg hcontent, if_neg hcontent]
    cases m <;> rfl

/-- A text starts with a letter. -/
theorem head?_encode {m : SipMessage} {text : Bytes} (h : encode m = some text) :
    ∃ b, text.head? = some b ∧ b ≠ 13 := by
  have hmethod : ∀ method : SipMethod, ∃ b ∈ (asBytes method.asStr).head?, b ≠ 13 := by
    intro method
    cases method <;> decide
  have hversion : ∃ b ∈ (asBytes sipV2).head?, b ≠ 13 := by decide
  obtain ⟨b, hb, hne⟩ : ∃ b ∈ (asBytes (m.startLine ++ "\r\n")).head?, b ≠ 13 := by
    cases m with
    | request r =>
      obtain ⟨b, hb, hne⟩ := hmethod r.reqLine.method
      refine ⟨b, ?_, hne⟩
      show b ∈ (asBytes (r.reqLine.line ++ "\r\n")).head?
      rw [asBytes_requestLine, List.head?_append, hb]
      rfl
    | response r =>
      obtain ⟨b, hb, hne⟩ := hversion
      refine ⟨b, ?_, hne⟩
      show b ∈ (asBytes (r.statusLine.line ++ "\r\n")).head?
      rw [asBytes_statusLine, List.head?_append, hb]
      rfl
  obtain ⟨headers, -, rfl⟩ := encode_eq_some_iff.mp h
  refine ⟨b, ?_, hne⟩
  rw [List.append_assoc, List.head?_append, hb]
  rfl

end SipParser

/-! ### Networks of transports -/

theorem isKeepalive_take {datagram : Bytes} (h : IsKeepalive datagram) :
    IsKeepalive (datagram.take datagramCapacity) := by
  rcases h with rfl | rfl | rfl <;> decide

theorem not_isKeepalive_take {m : SipMessage} {text : Bytes} (h : encode m = some text) :
    ¬ IsKeepalive (text.take datagramCapacity) := by
  obtain ⟨b, hb, hne⟩ := SipParser.head?_encode h
  have hhead : (text.take datagramCapacity).head? = some b := by
    rw [List.head?_take, if_neg (by decide), hb]
  rintro (hempty | hrequest | hresponse)
  · rw [hempty] at hhead
    cases hhead
  · rw [hrequest] at hhead
    exact hne (Option.some.inj hhead).symm
  · rw [hresponse] at hhead
    exact hne (Option.some.inj hhead).symm

namespace UdpTransport

/-- **What a datagram does**: it is passed on, answered, or nothing. -/
theorem receiveDatagram_cases (source : SocketAddr) (data : Bytes) (u : UdpTransport) :
    (¬ IsKeepalive (data.take datagramCapacity) ∧ u.receiveDatagram source data =
        u.receiveMessage ⟨data.take datagramCapacity, source⟩) ∨
      u.receiveDatagram source data = u.sendTo keepaliveResponse ∨
        u.receiveDatagram source data = u := by
  unfold receiveDatagram
  split
  · exact .inr (.inr rfl)
  · dsimp only
    split
    · exact .inr (.inr rfl)
    · next hempty =>
      split
      · exact .inr (.inl rfl)
      · next hrequest =>
        split
        · exact .inr (.inr rfl)
        · next hresponse =>
          refine .inl ⟨not_or.mpr ⟨?_, not_or.mpr ⟨hrequest, hresponse⟩⟩, rfl⟩
          exact fun h => hempty (List.length_eq_zero_iff.mpr h)

theorem receiveDatagram_of_not_isKeepalive (source : SocketAddr) {data : Bytes} {u : UdpTransport}
    (hended : u.ended = false) (h : ¬ IsKeepalive (data.take datagramCapacity)) :
    u.receiveDatagram source data = u.receiveMessage ⟨data.take datagramCapacity, source⟩ := by
  obtain ⟨hempty, hrequest, hresponse⟩ := not_or.mp h |>.imp id not_or.mp
  rw [receiveDatagram, if_neg (by simp [hended])]
  dsimp only
  rw [if_neg fun hlength => hempty (List.length_eq_zero_iff.mp hlength), if_neg hrequest,
    if_neg hresponse]

/-- The packets of a transport are the beginnings of genuine datagrams. -/
def Relays (Genuine : Bytes → Prop) (u : UdpTransport) : Prop :=
  ∀ message ∈ u.passed, ¬ IsKeepalive message.packet.data ∧
    ∃ data, Genuine data ∧ message.packet.data = data.take datagramCapacity

theorem relies_relays : party.Relies Relays where
  mono hgenuine h message hmessage := by
    obtain ⟨hnot, data, hdata, heq⟩ := h message hmessage
    exact ⟨hnot, data, hgenuine data hdata, heq⟩
  step e h := by
    cases e with
    | sendMsg buf => exact ⟨h, List.subset_append_left _ _⟩
    | recvError => exact ⟨h, List.Subset.refl _⟩
  receive {Genuine u} source data hdata h := by
    show Relays Genuine (u.receiveDatagram source data) ∧
      u.sent ⊆ (u.receiveDatagram source data).sent
    rcases u.receiveDatagram_cases source data with ⟨hnot, hpassed⟩ | hanswered | hsame
    · rw [hpassed]
      refine ⟨fun message hmessage => ?_, List.Subset.refl _⟩
      rcases List.mem_append.mp hmessage with hold | hnew
      · exact h message hold
      · obtain rfl := List.mem_singleton.mp hnew
        exact ⟨hnot, data, hdata, rfl⟩
    · rw [hanswered]
      exact ⟨h, List.subset_append_left _ _⟩
    · rw [hsame]
      exact ⟨h, List.Subset.refl _⟩

/-- The datagrams that a transport has sent, but for its answers to keep-alives. -/
def Says (said : Bytes → Prop) (u : UdpTransport) : Prop :=
  ∀ data ∈ u.sent, data = keepaliveResponse ∨ said data

theorem Says.sendTo {said : Bytes → Prop} {u : UdpTransport} (h : u.Says said) {buf : Bytes}
    (hbuf : buf = keepaliveResponse ∨ said buf) : (u.sendTo buf).Says said :=
  List.forall_mem_append.mpr ⟨h, List.forall_mem_singleton.mpr hbuf⟩

theorem Says.receiveDatagram {said : Bytes → Prop} {u : UdpTransport} (h : u.Says said)
    (source : SocketAddr) (data : Bytes) : (u.receiveDatagram source data).Says said := by
  rcases u.receiveDatagram_cases source data with ⟨-, hpassed⟩ | hanswered | hsame
  · rw [hpassed]
    exact h
  · rw [hanswered]
    exact h.sendTo (.inl rfl)
  · rw [hsame]
    exact h

section

variable {ι : Type} [DecidableEq ι] {w : ι → UdpTransport}

/-- A datagram that is sent is an answer to a keep-alive, or somebody sends it. -/
theorem says_run (hstart : ∀ i, (w i).sent = []) (es : List (NetworkEvent ι UdpEvent SocketAddr)) :
    ∀ i, Says (fun data => ∃ j, .acts j (.sendMsg data) ∈ es) (exec party.netStep w es i) := by
  have hstep : ∀ (w : ι → UdpTransport) e,
      (∀ i, Says (fun data => ∃ j, .acts j (.sendMsg data) ∈ es) (w i)) → e ∈ es →
        ∀ i, Says (fun data => ∃ j, .acts j (.sendMsg data) ∈ es) (party.netStep w e i) := by
    intro w e hw he
    cases e with
    | acts i e =>
      cases e with
      | sendMsg buf => exact Party.forall_update hw ((hw i).sendTo (.inr ⟨i, he⟩))
      | recvError => exact Party.forall_update hw (hw i)
    | arrives i j n source =>
      cases hpacket : (party.sent (w j))[n]? with
      | some data =>
        simp only [Party.netStep, hpacket]
        exact Party.forall_update hw ((hw i).receiveDatagram source data)
      | none =>
        simp only [Party.netStep, hpacket]
        exact hw
  have hfresh : ∀ i, Says (fun data => ∃ j, .acts j (.sendMsg data) ∈ es) (w i) := by
    intro i data hdata
    rw [hstart i] at hdata
    exact absurd hdata List.not_mem_nil
  have hall := always_of_meets hstep (fun _ h => h) hfresh
    (meets_of_forall_mem (fun _ he _ => he) w)
  exact hall es List.prefix_rfl

/-- **What comes out of a network of UDP transports.** When keep-alives aside only well-formed
    messages are sent, every packet that is passed on is the text of one of them up to the end of
    the buffer, whatever was lost, repeated, reordered or led astray: it is read as that message if
    its text fits into the buffer, and without the end of its body if its headers do.  No message
    that comes to a loop is passed over. -/
theorem run_reads (hstart : ∀ i, (w i).sent = [] ∧ (w i).passed = [])
    {es : List (NetworkEvent ι UdpEvent SocketAddr)}
    (hes : ∀ j buf, .acts j (.sendMsg buf) ∈ es →
      IsKeepalive buf ∨ ∃ m : SipMessage, m.WellFormed ∧ encode m = some buf) (i : ι) :
    let w' := exec party.netStep w es
    (∀ message ∈ (w' i).passed, ∃ j m text, .acts j (.sendMsg text) ∈ es ∧ m.WellFormed ∧
      encode m = some text ∧ message.packet.data = text.take datagramCapacity ∧
        (text.length - datagramCapacity ≤ m.bodyBytes.length →
          SipParser.parse message.packet.data =
            .ok (m.shortened (text.length - datagramCapacity)))) ∧
      ∀ j n source m text, (w' j).sent[n]? = some text → encode m = some text →
        (w' i).ended = false → (party.netStep w' (.arrives i j n source) i).passed =
          (w' i).passed ++ [⟨(w' i).handle, ⟨text.take datagramCapacity, source⟩⟩] := by
  intro w'
  have hrelays : ∀ i, Relays (party.Sent w') (w' i) := by
    refine relies_relays.exec (fun i message hmessage => ?_) es
    rw [(hstart i).2] at hmessage
    exact absurd hmessage List.not_mem_nil
  constructor
  · intro message hmessage
    obtain ⟨hnot, text, ⟨j, htext⟩, hdata⟩ := hrelays i message hmessage
    rw [hdata] at hnot
    have hbuf : ¬ IsKeepalive text := fun h => hnot (isKeepalive_take h)
    rcases says_run (fun i => (hstart i).1) es j text htext with rfl | ⟨j', hsaid⟩
    · exact absurd (.inr (.inr rfl)) hbuf
    · obtain ⟨m, hwf, hencode⟩ := (hes j' text hsaid).resolve_left hbuf
      refine ⟨j', m, text, hsaid, hwf, hencode, hdata, fun hcut => ?_⟩
      rw [hdata]
      exact SipParser.parse_take hwf hencode hcut
  · intro j n source m text hsent hencode hended
    have hreceive :=
      receiveDatagram_of_not_isKeepalive source hended (not_isKeepalive_take hencode)
    have hstep : party.netStep w' (.arrives i j n source) =
        Function.update w' i ((w' i).receiveDatagram source text) := by
      have hpacket : (party.sent (w' j))[n]? = some text := hsent
      rw [Party.netStep, hpacket]
      rfl
    rw [hstep, Function.update_self, hreceive]
    rfl

end

/-- Two transports at the local host. -/
def pair (_ : Bool) : UdpTransport := { localAddr := SocketAddr.localhost }

/-- A message that fits into the buffer. -/
theorem run_reads_text :
    ∃ text, encode SipMessage.textToLocalhost = some text ∧
      ∃ message m,
        (exec party.netStep pair [.acts false (.sendMsg text),
          .arrives true false 0 SocketAddr.localhost] true).passed = [message] ∧
          encode m = some text ∧
            SipParser.parse message.packet.data = .ok m.withContentLength := by
  obtain ⟨text, htext⟩ : ∃ text, encode SipMessage.textToLocalhost = some text := ⟨_, rfl⟩
  have hfits : text.length - datagramCapacity = 0 := by
    have hall : (encode SipMessage.textToLocalhost).all
        (fun text => text.length - datagramCapacity = 0) := by decide +kernel
    rw [htext] at hall
    simpa using hall
  have hsent : ∀ es : List (NetworkEvent Bool UdpEvent SocketAddr),
      (∀ e ∈ es, e = .acts false (.sendMsg text) ∨
        e = .arrives true false 0 SocketAddr.localhost) →
      ∀ j buf, .acts j (.sendMsg buf) ∈ es →
        IsKeepalive buf ∨ ∃ m : SipMessage, m.WellFormed ∧ encode m = some buf := by
    intro es hes j buf hbuf
    rcases hes _ hbuf with h | h
    · cases h
      exact .inr ⟨_, SipMessage.wellFormed_textToLocalhost, htext⟩
    · cases h
  have hstart : ∀ i, (pair i).sent = [] ∧ (pair i).passed = [] := fun _ => ⟨rfl, rfl⟩
  have hpassed := (run_reads hstart (hsent [.acts false (.sendMsg text)] (by simp)) true).2
    false 0 SocketAddr.localhost _ text rfl htext rfl
  have hread := (run_reads hstart
    (hsent [.acts false (.sendMsg text), .arrives true false 0 SocketAddr.localhost] (by simp))
    true).1 _ (hpassed ▸ List.mem_append_right _ (List.mem_singleton_self _))
  obtain ⟨j, m, text', hsaid, -, hencode, -, hparse⟩ := hread
  obtain ⟨rfl, rfl⟩ : j = false ∧ text' = text := by simpa using hsaid
  rw [hfits, SipMessage.shortened_zero] at hparse
  exact ⟨text', htext, _, m, hpassed, hencode, hparse (Nat.zero_le _)⟩

end UdpTransport

end Rssip
