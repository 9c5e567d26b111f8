import Rssip.Parser.ReadBack
import Rssip.Transaction.Client

namespace Rssip

open Lib SipParser

/-!
# Local addresses on the wire

A client puts the address of its socket into the `Via` of its requests.  The printer of hosts
leaves out the brackets of an IPv6 address, which the parser asks for.

* `HostPort.fromStr_toText_iff`, `readBack_newWithTransport_iff`, `Uri.fromStr_toText_iff` — a host,
  a `Via` and a URI are read back if and only if the host is not an IPv6 address;
* `SocketAddr.readBack_iff` — the three of them for what a socket is bound to.
-/

/-- A host and a port that are read from a text of its own. -/
def HostPort.fromStr (s : String) : Except Failure HostPort := SipParser.fromStr parseHostPort s

/-- **A host is read back** unless it is an IPv6 address. -/
theorem HostPort.fromStr_toText_iff {h : HostPort} (hhost : h.host.WellFormed ∨ h.host.IsV6) :
    HostPort.fromStr h.toText = .ok h ↔ ¬ h.host.IsV6 := by
  constructor
  · intro hread
    obtain ⟨c, hrun⟩ := fromStr_eq_ok_iff.mp hread
    exact not_isV6_of_parseHostPort hhost (List.append_nil _).symm hrun
  · intro hv6
    exact fromStr_of_reads (reads_parseHostPort (hhost.resolve_right hv6) (stops_nil _))

/-- A `Via` with nothing but an address, a branch and a response port. -/
theorem wellFormed_newWithTransport {transport : TransportProtocol} {h : HostPort}
    {branch : Option String} {rport : Option Rport} (hhost : h.host.WellFormed)
    (hbranch : ∀ b ∈ branch, Over isViaParam b) :
    (Via.newWithTransport transport h branch rport).WellFormed where
  sentBy := hhost
  maddr := by simp [Via.newWithTransport]
  branch := hbranch
  params := by simp [Via.newWithTransport]
  comment := by simp [Via.newWithTransport]

theorem printedAs_via (v : Via) : PrintedAs .via Via.parse Via.name (viaValue v) v where
  text := rfl
  token := by decide
  parser := Or.inr rfl
  start rest := by
    rw [asBytes_viaValue]
    exact stops_cons.mpr (by decide)
  isContentType := rfl

theorem readBack_newWithTransport_iff {transport : TransportProtocol} {h : HostPort}
    {branch : Option String} {rport : Option Rport} (hhost : h.host.WellFormed ∨ h.host.IsV6)
    (hbranch : ∀ b ∈ branch, Over isViaParam b) :
    (Header.via (Via.newWithTransport transport h branch rport)).ReadBack ↔ ¬ h.host.IsV6 := by
  let via := Via.newWithTransport transport h branch rport
  constructor
  · intro hread
    obtain ⟨c, c', hc, hparse⟩ :=
      (printedAs_via via).parse_of_readBack (fun _ _ => Header.via.inj) hread
    exact not_isV6_of_parseVia (v := via) hhost hc hparse
  · intro hv6
    have hwf : via.WellFormed :=
      wellFormed_newWithTransport (hhost.resolve_right hv6) hbranch
    exact Header.WellFormed.readBack (h := .via via) hwf

theorem Uri.fromStr_toText_iff {u : Uri} (hscanned : u.Scanned False) (hvalues : u.HeadersHaveValues) :
    Uri.fromStr u.toText = .ok u ↔ ¬ u.hostPort.host.IsV6 := by
  constructor
  · intro hread
    obtain ⟨c, hrun⟩ := fromStr_eq_ok_iff.mp hread
    have hrest : NoUserPart [] := List.not_mem_nil
    exact not_isV6_of_parseUri hscanned hvalues hrest (List.append_nil _).symm hrun
  · intro hv6
    exact fromStr_of_reads (reads_parseUri_nil (hscanned.wellFormed hv6 hvalues))

/-- **What is printed of a local address can be read back by the peer** if and only if the address
    is not one of IPv6: a host, a `Via`, and a URI. -/
theorem SocketAddr.readBack_iff (h : HostPort) (hhost : h.host.WellFormed ∨ h.host.IsV6)
    (addr : SocketAddr) :
    (HostPort.fromStr h.toText = .ok h ↔ ¬ h.host.IsV6) ∧
    (∀ (transport : TransportProtocol) (branch : Option String) (rport : Option Rport),
      (∀ b ∈ branch, Over isViaParam b) →
      ((Header.via (Via.newWithTransport transport addr.hostPort branch rport)).ReadBack ↔
        ¬ (Host.ipAddr addr.ip).IsV6)) ∧
    (∀ u : Uri, u.hostPort = addr.hostPort → u.Scanned False → u.HeadersHaveValues →
      (Uri.fromStr u.toText = .ok u ↔ ¬ (Host.ipAddr addr.ip).IsV6)) := by
  refine ⟨HostPort.fromStr_toText_iff hhost, ?_, ?_⟩
  · intro transport branch rport hbranch
    exact readBack_newWithTransport_iff (h := addr.hostPort) (wellFormed_or_isV6 addr.ip) hbranch
  · intro u hu hscanned hvalues
    rw [Uri.fromStr_toText_iff hscanned hvalues, hu]
    rfl

/-- The URI of an address. -/
def SocketAddr.uri (addr : SocketAddr) : Uri :=
  { scheme := .sip, user := none, hostPort := addr.hostPort }

theorem SocketAddr.scanned_uri (addr : SocketAddr) : addr.uri.Scanned False where
  user := by simp [uri]
  host := wellFormed_or_isV6 addr.ip
  userParam := by simp [uri]
  maddrParam := by simp [uri]
  params := by simp [uri]
  headers := by simp [uri]

theorem SocketAddr.readBack_localhost :
    (HostPort.fromStr localhost.hostPort.toText = .ok localhost.hostPort ↔
      ¬ localhost.hostPort.host.IsV6) ∧
    ((Header.via (Via.newWithTransport .udp localhost.hostPort (some "z9hG4bK1")
      (some ⟨none⟩))).ReadBack ↔ ¬ (Host.ipAddr localhost.ip).IsV6) ∧
    (Uri.fromStr localhost.uri.toText = .ok localhost.uri ↔ ¬ (Host.ipAddr localhost.ip).IsV6) :=
  have hread := readBack_iff localhost.hostPort (by decide) localhost
  ⟨hread.1, hread.2.1 .udp (some "z9hG4bK1") (some ⟨none⟩) (by decide),
    hread.2.2 localhost.uri rfl localhost.scanned_uri (by decide)⟩

/-- `[::1]:5060` -/
def HostPort.loopbackV6 : HostPort :=
  ⟨.ipAddr (.v6 (Ipv6Addr.ofSegments [0, 0, 0, 0, 0, 0, 0, 1])), some 5060⟩

/-- The loopback address of IPv6 is printed as a text that is no host. -/
theorem HostPort.not_fromStr_toText :
    ¬ ∀ h : HostPort, h.host.WellFormed ∨ h.host.IsV6 → HostPort.fromStr h.toText = .ok h := by
  intro h
  have hread := h HostPort.loopbackV6 (by decide)
  exact absurd hread (by decide +kernel)

end Rssip
