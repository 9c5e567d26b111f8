import Rssip.Parser.Image

namespace Rssip

open Lib SipParser

/-!
# The text of a parsed URI is canonical

A URI or a name-addr that was parsed from a text without quotes is read back as it is printed,
so that its text does not change any more.

* `Uri.fromStr`, `NameAddr.fromStr` — the conversions from a string;
* `Canonical` — a value that its own text is read as;
* `canonical_of_fromStr` — the parsed values are, unless the host is an IPv6 address or a header
  has no value.
-/

/-- A URI that is read from a text of its own. -/
def Uri.fromStr (s : String) : Except Failure Uri := SipParser.fromStr (parseUri true) s

/-- An address in brackets that is read from a text of its own. -/
def NameAddr.fromStr (s : String) : Except Failure NameAddr := SipParser.fromStr parseNameAddr s

/-- The text of `a` is read as `a`, and what it is read as has the same text. -/
def Canonical {α : Type} (fromStr : String → Except Failure α) (toText : α → String) (a : α) : Prop :=
  fromStr (toText a) = .ok a ∧ toText <$> fromStr (toText a) = .ok (toText a)

theorem canonical_of_eq {α : Type} {fromStr : String → Except Failure α} {toText : α → String} {a : α}
    (h : fromStr (toText a) = .ok a) : Canonical fromStr toText a := by
  refine ⟨h, ?_⟩
  rw [h]
  rfl

namespace SipParser

/-- A URI is read back at the end of the text. -/
theorem reads_parseUri_nil {u : Uri} (hwf : u.WellFormed) :
    Reads (parseUri true) (asBytes u.toText) [] u := by
  have huser : NoUserPart [] := List.not_mem_nil
  cases h : u.headers with
  | none =>
    have hend : UriEnd u [] [] :=
      { blank := by simp
        space := stops_nil _
        semi := stops_nil _
        question := stops_nil _
        param := fun _ => stops_nil _ }
    have hread := reads_parseUri_params hwf h hend fun _ => huser
    rwa [List.append_nil] at hread
  | some hs => exact reads_parseUri_headers hwf h (stops_nil _) (stops_nil _) fun _ => huser

/-- **What a string without quotes is parsed into** has the properties of the parser's values. -/
theorem scanned_fromStr {α : Type} {P : α → Prop} {r : Parse α}
    (hr : Yields (Quoteless False) P r) {s : String} (hquote : 34 ∉ asBytes s) {a : α}
    (h : fromStr r s = .ok a) : P a := by
  obtain ⟨c, hc⟩ := fromStr_eq_ok_iff.mp h
  exact (hr _ a c (quoteless_new hquote) hc).1

end SipParser

/-- **Printing is canonical**: a URI that was read from a text without quotes, whose host is not an
    IPv6 address and whose headers have values, is what its own text is read as.  The same holds
    of a name-addr. -/
theorem canonical_of_fromStr :
    (∀ (s : String) (u : Uri), 34 ∉ asBytes s → Uri.fromStr s = .ok u →
      ¬ u.hostPort.host.IsV6 → u.HeadersHaveValues → Canonical Uri.fromStr Uri.toText u) ∧
    (∀ (s : String) (a : NameAddr), 34 ∉ asBytes s → NameAddr.fromStr s = .ok a →
      ¬ a.uri.hostPort.host.IsV6 → a.uri.HeadersHaveValues →
      Canonical NameAddr.fromStr NameAddr.toText a) := by
  constructor
  · intro s u hquote h hhost hvalues
    have hscanned : u.Scanned False := (scanned_fromStr (scanned_parseUri true) hquote h).1
    have hwf : u.WellFormed := hscanned.wellFormed hhost hvalues
    exact canonical_of_eq (fromStr_of_reads (reads_parseUri_nil hwf))
  · intro s a hquote h hhost hvalues
    -- the display name is printed between quotes and has none itself
    have hscanned : a.Scanned False := scanned_fromStr scanned_parseNameAddr hquote h
    have hwf : a.WellFormed := ⟨hscanned.1, hscanned.2.wellFormed hhost hvalues⟩
    exact canonical_of_eq (fromStr_of_reads (reads_parseNameAddr hwf))

/-- `sip:alice@example.com;ttl=1;lr?subject=hi` -/
def Uri.ofAlice : Uri :=
  { scheme := .sip
    user := some ⟨"alice", none⟩
    hostPort := ⟨.hostName "example.com", none⟩
    ttlParam := some 1
    lrParam := true
    headers := some ⟨⟨[⟨"subject", some "hi"⟩]⟩⟩ }

/-- The parameters are printed in another order than they were read. -/
theorem canonical_ofAlice : Canonical Uri.fromStr Uri.toText Uri.ofAlice ∧
    Canonical NameAddr.fromStr NameAddr.toText ⟨some "Alice", Uri.ofAlice⟩ :=
  ⟨canonical_of_fromStr.1 "sip:alice@example.com;lr ;ttl=01?subject=hi" Uri.ofAlice (by decide)
      (by decide +kernel) (by decide) (by decide),
    canonical_of_fromStr.2 "Alice <sip:alice@example.com;lr;ttl=1?subject=hi>"
      ⟨some "Alice", Uri.ofAlice⟩ (by decide) (by decide +kernel) (by decide) (by decide)⟩

end Rssip
