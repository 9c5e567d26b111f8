import Rssip.Parser.Body
import Rssip.Parser.MessageRoundTrip

namespace Rssip

open Lib SipParser

/-!
# Start lines on the wire

The method of a request and the status code of a response stand in front of everything that can be
misread, so they are read as they were written whatever else the message has in it.

* `SipMessage.kind` — the method of a request, or the status code of a response;
* `kind_of_parse` — a message that is accepted has the kind of the message it was encoded from.
-/

/-- The method of a request, or the status code of a response. -/
def SipMessage.kind : SipMessage → SipMethod ⊕ StatusCode
  | request r => .inl r.reqLine.method
  | response r => .inr r.statusLine.code

namespace SipParser

/-- Headers and a body do not change the kind. -/
theorem kind_readMessage (m : SipMessage) (headers : Headers) (found : Bool) (body : Bytes) :
    (readMessage m headers found body).kind = m.kind := by
  unfold readMessage
  split
  · cases m <;> rfl
  · cases m <;> rfl

/-- A status code is read up to the blank behind it. -/
theorem code_of_parseStatusCode {code read : StatusCode} {rest : Bytes} {c c' : Scanner}
    (hc : Cursor.remaining c = [32] ++ (asBytes (decimal code.asU16) ++ 32 :: rest))
    (h : parseStatusCode c = .ok read c') : read = code := by
  have hblank : Reads skipWs [32] (asBytes (decimal code.asU16) ++ 32 :: rest) () :=
    reads_skipWs (by decide) (stops_isSpace_decimal _ _)
  have hdigits : Reads (consumeWhile isAsciiDigit) (asBytes (decimal code.asU16)) (32 :: rest)
      (asBytes (decimal code.asU16)) :=
    reads_consumeWhile (fun b hb => isAsciiDigit_of_mem_decimal hb) (stops_cons.mpr (by decide))
  rw [parseStatusCode, hblank.bind_run hc, hdigits.bind_run (remaining_advance hc)] at h
  -- the reason phrase may start with more blanks
  obtain ⟨_, c₁, -, h⟩ := bind_eq_ok_iff.mp h
  rw [StatusCode.tryFrom_asU16] at h
  injection h with h
  exact h.symm

theorem code_of_parseStatusLine {l : StatusLine} {rest : Bytes} {c c' : Scanner}
    {read : StatusLine} (hc : Cursor.remaining c = asBytes (l.line ++ "\r\n") ++ rest)
    (h : parseStatusLine c = .ok read c') : read.code = l.code := by
  rw [asBytes_statusLine, List.append_assoc] at hc
  rw [parseStatusLine, reads_parseSipVersion.bind_run hc] at h
  obtain ⟨code, c₁, hcode, h⟩ := bind_eq_ok_iff.mp h
  obtain ⟨reason, c₂, -, h⟩ := bind_eq_ok_iff.mp h
  obtain ⟨_, c₃, -, h⟩ := bind_eq_ok_iff.mp h
  injection h with hread
  rw [← hread]
  have hrest : Cursor.remaining (Lib.advance c (asBytes sipV2)) =
      [32] ++ (asBytes (decimal l.code.asU16) ++ 32 :: (asBytes l.reason ++ [13, 10] ++ rest)) := by
    rw [remaining_advance hc]
    simp only [List.append_assoc, List.cons_append, List.nil_append]
  exact code_of_parseStatusCode hrest hcode

/-- A method is read up to the blank behind it. -/
theorem method_of_parseRequestLine {l : RequestLine} {rest : Bytes} {c c' : Scanner}
    {read : RequestLine} (hc : Cursor.remaining c = asBytes (l.line ++ "\r\n") ++ rest)
    (h : parseRequestLine c = .ok read c') : read.method = l.method := by
  have htoken : Reads (consumeWhile isToken) (asBytes l.method.asStr)
      ([32] ++ (asBytes l.uri.toText ++ ([32] ++ (asBytes sipV2 ++ [13, 10]))) ++ rest)
      (asBytes l.method.asStr) :=
    reads_consumeWhile (over_asStr_token _) (stops_cons.mpr (by decide))
  rw [asBytes_requestLine, List.append_assoc] at hc
  rw [parseRequestLine, htoken.bind_run hc] at h
  obtain ⟨_, _, -, h⟩ := bind_eq_ok_iff.mp h
  obtain ⟨_, _, -, h⟩ := bind_eq_ok_iff.mp h
  obtain ⟨_, _, -, h⟩ := bind_eq_ok_iff.mp h
  obtain ⟨_, _, -, h⟩ := bind_eq_ok_iff.mp h
  obtain ⟨_, _, -, h⟩ := bind_eq_ok_iff.mp h
  injection h with hread
  rw [← hread]
  exact SipMethod.fromBytes_asStr _

theorem kind_of_parseStartLine {m bare : SipMessage} {rest : Bytes} {c c' : Scanner}
    (hc : Cursor.remaining c = asBytes (m.startLine ++ "\r\n") ++ rest)
    (h : parseStartLine c = .ok bare c') : bare.kind = m.kind := by
  have h := get_bind_eq_ok_iff.mp h
  cases m with
  | request r =>
    have hpeek : c.peekN (asBytes sipV2).length ≠ some (asBytes sipV2) := by
      have hrem : c.remaining = asBytes (r.reqLine.line ++ "\r\n") ++ rest := hc
      rw [asBytes_requestLine, List.append_assoc] at hrem
      exact peekN_asStr hrem
    rw [if_neg (by simpa using hpeek)] at h
    obtain ⟨line, c₁, hline, h⟩ := bind_eq_ok_iff.mp h
    injection h with hbare
    rw [← hbare]
    exact congrArg Sum.inl (method_of_parseRequestLine hc hline)
  | response r =>
    have hpeek : c.peekN (asBytes sipV2).length = some (asBytes sipV2) := by
      have hrem : c.remaining = asBytes (r.statusLine.line ++ "\r\n") ++ rest := hc
      rw [asBytes_statusLine, List.append_assoc] at hrem
      rw [Scanner.peekN, hrem, if_pos (by simp), List.take_left]
    rw [if_pos (by simpa using hpeek)] at h
    obtain ⟨line, c₁, hline, h⟩ := bind_eq_ok_iff.mp h
    injection h with hbare
    rw [← hbare]
    exact congrArg Sum.inr (code_of_parseStatusLine hc hline)

end SipParser

/-- **What is read of a start line.** For every message, whatever its headers, its URI or reason
    phrase and its body have in them: if what is put on the wire for it is accepted at all, it is
    accepted as a request with the same method, or as a response with the same status code. -/
theorem kind_of_parse {m m' : SipMessage} {bs : Bytes} (h : encode m = some bs)
    (hparse : SipParser.parse bs = .ok m') : m'.kind = m.kind := by
  obtain ⟨headers, -, rfl⟩ := encode_eq_some_iff.mp h
  obtain ⟨c, hrun⟩ := parse_eq_ok_iff.mp hparse
  obtain ⟨bare, c₁, hs, found, c₂, hstart, -, rfl⟩ := parseSipMsg_eq_ok hrun
  rw [kind_readMessage]
  have hc : Cursor.remaining (Scanner.new (asBytes (m.startLine ++ "\r\n") ++ asBytes headers ++
      writeBody m.body)) = asBytes (m.startLine ++ "\r\n") ++ (asBytes headers ++ writeBody m.body) :=
    List.append_assoc _ _ _
  exact kind_of_parseStartLine hc hstart

end Rssip
