import Rssip.Lib.Position
import Rssip.Message.Message

namespace Rssip

open Lib

/-!
# The route set of a request

What happens to the `Route` headers of a request that is sent without a fixed target.

* `Endpoint.processRouteSet` — the URI to resolve, and the request as it is sent;
* `processRouteSet_cases` — the headers around the route that is taken out;
* `processRouteSet_nextHop_iff` — when the URI is the one of the topmost route;
* `processRouteSet_rewrites_iff` — when the routes are rewritten for a strict router.
-/

/-- A URI in angle brackets. -/
def NameAddr.new (uri : Uri) : NameAddr := ⟨none, uri⟩

/-- The value of a `Route` header. -/
def Header.intoRoute : Header → Option Route
  | .route r => some r
  | _ => none

/-- Whether the header is a `Route`. -/
def Header.isRoute (h : Header) : Bool := h.intoRoute.isSome

/-- A route without the `lr` parameter. -/
def Header.isStrictRoute : Header → Bool
  | .route r => !r.nameAddr.uri.lrParam
  | _ => false

/-- A route without parameters of its own. -/
def Route.ofUri (uri : Uri) : Route := ⟨.new uri, {}⟩

/-- A route takes the place of the last one, which moves on by one; or it is the only one. -/
def Headers.insertRoute (route : Route) (headers : Headers) : Headers :=
  match rposition Header.isRoute headers with
  | some index => headers.insertIdx index (.route route)
  | none => headers ++ [.route route]

/-- `process_route_set`: the URI to resolve, and the request; `none` where it panics. -/
def Endpoint.processRouteSet (request : Request) : Option (Uri × Request) :=
  match request.headers.findIdx? Header.isStrictRoute with
  | some index => do
    let topmostRoute ← (← request.headers[index]?).intoRoute
    let headers := request.headers.eraseIdx index
    let headers := Headers.insertRoute (.ofUri request.reqLine.uri) headers
    return (topmostRoute.nameAddr.uri, { request with headers := headers })
  | none => some (request.reqLine.uri, request)

/-- The routes among the headers, topmost first. -/
def Headers.routes (headers : Headers) : List Route := headers.filterMap Header.intoRoute

/-! ### The header list -/

/-- A strict route is a route without the `lr` parameter. -/
theorem isRoute_of_isStrictRoute {h : Header} (hstrict : h.isStrictRoute = true) :
    ∃ route, h = .route route ∧ route.nameAddr.uri.lrParam = false := by
  cases h with
  | route route => exact ⟨route, rfl, by simpa [Header.isStrictRoute] using hstrict⟩
  | _ => cases hstrict

/-- A route header has a route. -/
theorem exists_of_isRoute {h : Header} (hroute : h.isRoute = true) : ∃ route, h = .route route := by
  cases h with
  | route route => exact ⟨route, rfl⟩
  | _ => cases hroute

namespace Headers

/-- The routes of two lists of headers are those of one after those of the other. -/
@[simp] theorem routes_append (hs hs' : Headers) :
    routes (hs ++ hs') = routes hs ++ routes hs' := List.filterMap_append

/-- A route in front is the topmost one. -/
@[simp] theorem routes_cons_route (route : Route) (hs : Headers) :
    routes (.route route :: hs) = route :: routes hs := rfl

/-- There are no routes exactly if no header is one. -/
theorem routes_eq_nil_iff {hs : Headers} : routes hs = [] ↔ ∀ h ∈ hs, h.isRoute = false := by
  simp [routes, List.filterMap_eq_nil_iff, Header.isRoute, Option.isSome_eq_false_iff]

/-- The routes are among the headers. -/
theorem mem_of_mem_routes {hs : Headers} {route : Route} (h : route ∈ routes hs) :
    .route route ∈ hs := by
  obtain ⟨header, hmem, hinto⟩ := List.mem_filterMap.mp h
  cases header with
  | route r => exact Option.some.inj hinto ▸ hmem
  | _ => cases hinto

/-- **Where the route is put**: in front of the last one, or at the end if there is none. -/
theorem insertRoute_cases (route : Route) (hs : Headers) :
    ((∀ h ∈ hs, h.isRoute = false) ∧ insertRoute route hs = hs ++ [.route route]) ∨
      ∃ before last after, hs = before ++ .route last :: after ∧
        (∀ h ∈ after, h.isRoute = false) ∧
        insertRoute route hs = before ++ .route route :: .route last :: after := by
  rcases rposition_cases Header.isRoute hs with
    ⟨hnone, hidx⟩ | ⟨before, h, after, rfl, hh, hafter, hidx⟩
  · exact .inl ⟨hnone, by rw [insertRoute, hidx]⟩
  · obtain ⟨last, rfl⟩ := exists_of_isRoute hh
    refine .inr ⟨before, last, after, rfl, hafter, ?_⟩
    rw [insertRoute, hidx]
    exact insertIdx_append_length before _ _

/-- Behind the last route there is no other. -/
theorem insertRoute_append (route : Route) (before : Headers) (last : Route) {after : Headers}
    (hafter : ∀ h ∈ after, h.isRoute = false) :
    insertRoute route (before ++ .route last :: after) =
      before ++ .route route :: .route last :: after := by
  rw [insertRoute, rposition_append rfl hafter]
  exact insertIdx_append_length before _ _

/-- The headers that are no routes keep their order. -/
theorem filter_insertRoute (route : Route) (hs : Headers) :
    (insertRoute route hs).filter (fun h => !h.isRoute) = hs.filter fun h => !h.isRoute := by
  rcases insertRoute_cases route hs with ⟨-, hinsert⟩ | ⟨before, last, after, rfl, -, hinsert⟩
  · rw [hinsert, List.filter_append]
    exact List.append_nil _
  · rw [hinsert, List.filter_append, List.filter_append]
    rfl

/-- The route is the last but one of the routes, or the only one. -/
theorem routes_insertRoute (route : Route) (hs : Headers) :
    (routes hs = [] ∧ routes (insertRoute route hs) = [route]) ∨
      ∃ rs last, routes hs = rs ++ [last] ∧
        routes (insertRoute route hs) = rs ++ [route, last] := by
  rcases insertRoute_cases route hs with
    ⟨hnone, hinsert⟩ | ⟨before, last, after, rfl, hafter, hinsert⟩
  · have hnil := routes_eq_nil_iff.mpr hnone
    refine .inl ⟨hnil, ?_⟩
    rw [hinsert, routes_append, hnil]
    rfl
  · have hnil := routes_eq_nil_iff.mpr hafter
    exact .inr ⟨routes before, last, by simp [hnil], by simp [hinsert, hnil]⟩

end Headers

/-! ### The next hop -/

namespace Endpoint

/-- **What `process_route_set` does**: nothing if every route is loose; or else it takes out the
    first one that is not, wherever it stands, and puts the Request-URI in front of the last of
    the others.  The Request-URI stays. -/
theorem processRouteSet_cases (request : Request) :
    ((∀ h ∈ request.headers, h.isStrictRoute = false) ∧
        processRouteSet request = some (request.reqLine.uri, request)) ∨
      ∃ before route after, request.headers = before ++ .route route :: after ∧
        route.nameAddr.uri.lrParam = false ∧ (∀ h ∈ before, h.isStrictRoute = false) ∧
        processRouteSet request = some (route.nameAddr.uri,
          { request with
            headers := Headers.insertRoute (.ofUri request.reqLine.uri) (before ++ after) }) := by
  rcases findIdx?_cases Header.isStrictRoute request.headers with
    ⟨hnone, hidx⟩ | ⟨before, h, after, hheaders, hh, hbefore, hidx⟩
  · exact .inl ⟨hnone, by rw [processRouteSet, hidx]⟩
  · obtain ⟨route, rfl, hstrict⟩ := isRoute_of_isStrictRoute hh
    refine .inr ⟨before, route, after, hheaders, hstrict, hbefore, ?_⟩
    simp only [processRouteSet, hidx]
    rw [hheaders, getElem?_append_length, eraseIdx_append_length]
    rfl

/-- The URI a request goes to: that of its topmost route, or the Request-URI. -/
def nextHop (request : Request) : Uri :=
  match Headers.routes request.headers with
  | topmost :: _ => topmost.nameAddr.uri
  | [] => request.reqLine.uri

/-- There is no route, or the topmost one is strict, or all of them are loose and the topmost
    one has the Request-URI. -/
def NextHopIsTopmost (request : Request) : Prop :=
  match Headers.routes request.headers with
  | [] => True
  | topmost :: others => topmost.nameAddr.uri.lrParam = false ∨
      ((∀ route ∈ others, route.nameAddr.uri.lrParam = true) ∧
        request.reqLine.uri = topmost.nameAddr.uri)

/-- Without strict routes every route has the `lr` parameter. -/
theorem lrParam_of_mem {hs : Headers} (h : ∀ h ∈ hs, h.isStrictRoute = false) {route : Route}
    (hroute : route ∈ Headers.routes hs) : route.nameAddr.uri.lrParam = true := by
  have hloose := h _ (Headers.mem_of_mem_routes hroute)
  simpa [Header.isStrictRoute] using hloose

/-- **When a request goes to its topmost route.** The URI that `process_route_set` returns is the
    one of the topmost route, or the Request-URI where there is none, exactly when the topmost
    route is strict, or every route is loose and the topmost one has the Request-URI. -/
theorem processRouteSet_nextHop_iff (request : Request) :
    (∃ sent, processRouteSet request = some (nextHop request, sent)) ↔
      NextHopIsTopmost request := by
  rcases processRouteSet_cases request with
    ⟨hloose, hprocess⟩ | ⟨before, route, after, hheaders, hstrict, hbefore, hprocess⟩
  · -- every route is loose
    rw [hprocess]
    unfold nextHop NextHopIsTopmost
    cases hroutes : Headers.routes request.headers with
    | nil => exact iff_of_true ⟨request, rfl⟩ trivial
    | cons topmost others =>
      have hlr : ∀ route ∈ topmost :: others, route.nameAddr.uri.lrParam = true :=
        fun route hroute => lrParam_of_mem hloose (hroutes ▸ hroute)
      obtain ⟨htopmost, hothers⟩ := List.forall_mem_cons.mp hlr
      simp only [Option.some.injEq, Prod.mk.injEq, htopmost, Bool.true_eq_false, false_or]
      constructor
      · rintro ⟨sent, huri, -⟩
        exact ⟨hothers, huri⟩
      · rintro ⟨-, huri⟩
        exact ⟨request, huri, rfl⟩
  · rw [hprocess]
    unfold nextHop NextHopIsTopmost
    rw [hheaders, Headers.routes_append, Headers.routes_cons_route]
    cases hroutes : Headers.routes before with
    | nil => exact iff_of_true ⟨_, rfl⟩ (.inl hstrict)
    | cons topmost others =>
      -- the topmost route is loose, so its URI is not that of the strict one
      have htopmost : topmost.nameAddr.uri.lrParam = true :=
        lrParam_of_mem hbefore (hroutes ▸ List.mem_cons_self)
      refine iff_of_false ?_ ?_
      · rintro ⟨sent, hsent⟩
        simp only [List.cons_append, Option.some.injEq, Prod.mk.injEq] at hsent
        rw [hsent.1, htopmost] at hstrict
        cases hstrict
      · rintro (hlr | ⟨hall, -⟩)
        · rw [htopmost] at hlr
          cases hlr
        · rw [hall route (by simp)] at hstrict
          cases hstrict

/-- `sip:` and a host, with `lr` if the router is loose. -/
def hostUri (host : String) (lr : Bool) : Uri :=
  { scheme := .sip, user := none, hostPort := ⟨.hostName host, none⟩, lrParam := lr }

/-- A call of `b` by way of the loose router `p`. -/
def byLooseRouter : Request where
  reqLine := ⟨.invite, hostUri "b" false⟩
  headers := [.route (.ofUri (hostUri "p" true))]

/-- The loose router is passed by: with one route the code resolves the Request-URI, and not the URI
    of the route. -/
theorem not_processRouteSet_nextHop :
    ¬ ∀ request : Request, ∃ sent, processRouteSet request = some (nextHop request, sent) := by
  intro hall
  obtain ⟨sent, hsent⟩ := hall byLooseRouter
  have hprocess : processRouteSet byLooseRouter = some (hostUri "b" false, byLooseRouter) :=
    rfl
  have huri : hostUri "b" false = hostUri "p" true :=
    congrArg Prod.fst (Option.some.inj (hprocess.symm.trans hsent))
  exact absurd huri (by decide)

/-! ### Strict routers -/

/-- What is to become of the routes of a request.  If the topmost one is strict, its URI is the
    new Request-URI, and the old one is appended to the other routes; if it is loose, the request
    stays as it is. -/
def Rewritten (request sent : Request) : Prop :=
  match Headers.routes request.headers with
  | [] => True
  | topmost :: others =>
    if topmost.nameAddr.uri.lrParam then sent = request
    else
      sent.reqLine.uri = topmost.nameAddr.uri ∧
        Headers.routes sent.headers = others ++ [.ofUri request.reqLine.uri] ∧
        sent.headers.filter (fun h => !h.isRoute) = request.headers.filter fun h => !h.isRoute

/-- The first strict route is the one that is put in its place: it is the Request-URI as a
    route, and only copies of it stand in front of the last route. -/
def StrictStays (request : Request) : Prop :=
  ∃ before n last after, request.headers =
      before ++ List.replicate (n + 1) (.route (.ofUri request.reqLine.uri)) ++
        .route last :: after ∧
    request.reqLine.uri.lrParam = false ∧ (∀ h ∈ before, h.isStrictRoute = false) ∧
    ∀ h ∈ after, h.isRoute = false

/-- The condition for it.  A strict topmost route has the Request-URI, and the last of the others
    is that URI as a route; behind a loose one there is no strict one, or it stays. -/
def RewritesCorrectly (request : Request) : Prop :=
  match Headers.routes request.headers with
  | [] => True
  | topmost :: others =>
    if topmost.nameAddr.uri.lrParam then
      (∀ h ∈ request.headers, h.isStrictRoute = false) ∨ StrictStays request
    else
      request.reqLine.uri = topmost.nameAddr.uri ∧
        (others = [] ∨ others.getLast? = some (.ofUri request.reqLine.uri))

/-- Behind the last route of `hs`, the routes appended are those in front of it exactly when the
    last one is the new one. -/
theorem routes_insertRoute_eq_iff (route : Route) (hs : Headers) :
    Headers.routes (Headers.insertRoute route hs) = Headers.routes hs ++ [route] ↔
      Headers.routes hs = [] ∨ (Headers.routes hs).getLast? = some route := by
  rcases Headers.routes_insertRoute route hs with ⟨hnil, hinsert⟩ | ⟨rs, last, hroutes, hinsert⟩
  · rw [hnil, hinsert]
    exact iff_of_true rfl (.inl rfl)
  · rw [hroutes, hinsert, List.append_assoc, List.append_cancel_left_eq, List.getLast?_concat]
    constructor
    · intro h
      cases h
      exact .inr rfl
    · rintro (hnil | hlast)
      · simp at hnil
      · cases hlast
        rfl

/-- A strict route that is taken out comes back to its place exactly when it is the route that
    is put in, and only copies of it stand between it and the last route. -/
theorem insertRoute_eq_self_iff {u route : Route} {before after : Headers}
    (hstrict : route.nameAddr.uri.lrParam = false)
    (hbefore : ∀ h ∈ before, h.isStrictRoute = false) (hroutes : Headers.routes before ≠ []) :
    Headers.insertRoute u (before ++ after) = before ++ .route route :: after ↔
      ∃ n last rest, .route route :: after =
          List.replicate (n + 1) (Header.route u) ++ .route last :: rest ∧
        ∀ h ∈ rest, h.isRoute = false := by
  constructor
  · intro heq
    by_cases hafter : ∀ h ∈ after, h.isRoute = false
    · -- the last route stands in front of the one that is taken out, and is loose
      rcases Headers.insertRoute_cases u before with ⟨hnone, -⟩ | ⟨front, last, rest, rfl, hrest, -⟩
      · exact absurd (Headers.routes_eq_nil_iff.mpr hnone) hroutes
      have hlast : last.nameAddr.uri.lrParam = true := by
        have hloose := hbefore (.route last) (by simp)
        simpa [Header.isStrictRoute] using hloose
      rw [List.append_assoc, List.cons_append, Headers.insertRoute_append u front last
        (List.forall_mem_append.mpr ⟨hrest, hafter⟩), List.append_assoc,
        List.append_cancel_left_eq] at heq
      have hmoved : Header.route u :: (.route last :: rest) =
          (.route last :: rest) ++ [.route route] :=
        List.append_cancel_right (heq.trans (List.append_cons _ _ _))
      -- so the two are one route, which would be loose and strict
      obtain ⟨hu, hsame⟩ := cons_eq_append_singleton_iff.mp hmoved
      rw [List.length_cons, List.replicate_succ, List.cons.injEq] at hsame
      cases hu
      cases hsame.1
      rw [hlast] at hstrict
      cases hstrict
    · -- the last route stands behind the one that is taken out
      rcases Headers.insertRoute_cases u after with ⟨hnone, -⟩ | ⟨mid, last, rest, rfl, hrest, -⟩
      · exact absurd hnone hafter
      rw [← List.append_assoc, Headers.insertRoute_append u (before ++ mid) last hrest,
        List.append_assoc, List.append_cancel_left_eq] at heq
      have hmoved : Header.route route :: mid = mid ++ [.route u] :=
        (List.append_cancel_right ((List.append_cons _ _ _).symm.trans heq)).symm
      -- a list that is the same when its first element is moved to its end repeats that element
      obtain ⟨hu, hsame⟩ := cons_eq_append_singleton_iff.mp hmoved
      refine ⟨mid.length, last, rest, ?_, hrest⟩
      rw [List.replicate_succ, ← hu, ← hsame]
      rfl
  · rintro ⟨n, last, rest, hsplit, hrest⟩
    rw [List.replicate_succ, List.cons_append, List.cons.injEq] at hsplit
    obtain ⟨hu, rfl⟩ := hsplit
    rw [← List.append_assoc, Headers.insertRoute_append u _ last hrest, hu, List.append_assoc,
      List.append_cancel_left_eq, ← List.cons_append, ← List.replicate_succ, List.replicate_succ',
      List.append_assoc]
    rfl

/-- What is to become of the routes behind a strict one. -/
theorem rewritten_cons_strict {request sent : Request} {topmost : Route} {others : List Route}
    (hroutes : Headers.routes request.headers = topmost :: others)
    (hstrict : topmost.nameAddr.uri.lrParam = false) :
    Rewritten request sent ↔ sent.reqLine.uri = topmost.nameAddr.uri ∧
      Headers.routes sent.headers = others ++ [.ofUri request.reqLine.uri] ∧
      sent.headers.filter (fun h => !h.isRoute) = request.headers.filter fun h => !h.isRoute := by
  simp [Rewritten, hroutes, hstrict]

/-- Behind a loose route, the routes are to stay as they are. -/
theorem rewritten_cons_loose {request sent : Request} {topmost : Route} {others : List Route}
    (hroutes : Headers.routes request.headers = topmost :: others)
    (hloose : topmost.nameAddr.uri.lrParam = true) :
    Rewritten request sent ↔ sent = request := by
  simp [Rewritten, hroutes, hloose]

/-- A strict route behind a loose one stays exactly when it is put back where it was. -/
theorem strictStays_iff {request : Request} {before after : Headers} {route : Route}
    (hheaders : request.headers = before ++ .route route :: after)
    (hstrict : route.nameAddr.uri.lrParam = false)
    (hbefore : ∀ h ∈ before, h.isStrictRoute = false) (hroutes : Headers.routes before ≠ []) :
    StrictStays request ↔
      Headers.insertRoute (.ofUri request.reqLine.uri) (before ++ after) = request.headers := by
  -- the first strict route splits the headers in one way only
  have hroute : (Header.route route).isStrictRoute = true := by
    simp [Header.isStrictRoute, hstrict]
  rw [hheaders, insertRoute_eq_self_iff hstrict hbefore hroutes]
  constructor
  · rintro ⟨before', n, last, rest, hsplit, huri, hbefore', hrest⟩
    rw [hheaders, List.replicate_succ, List.append_assoc, List.cons_append] at hsplit
    have hu : (Header.route (.ofUri request.reqLine.uri)).isStrictRoute = true := by
      simp [Header.isStrictRoute, Route.ofUri, NameAddr.new, huri]
    obtain ⟨-, hfirst, hafter⟩ :=
      append_cons_inj_of_first hbefore hbefore' hroute hu hsplit
    refine ⟨n, last, rest, ?_, hrest⟩
    rw [hfirst, hafter]
    rfl
  · rintro ⟨n, last, rest, hsplit, hrest⟩
    refine ⟨before, n, last, rest, ?_, ?_, hbefore, hrest⟩
    · rw [hheaders, hsplit, List.append_assoc]
    · rw [List.replicate_succ, List.cons_append, List.cons.injEq, Header.route.injEq] at hsplit
      rw [hsplit.1] at hstrict
      exact hstrict

/-- **When the routes of a request are rewritten for a strict router**, or left alone for a loose
    one: exactly when the request meets `RewritesCorrectly`. -/
theorem processRouteSet_rewrites_iff (request : Request) :
    (∃ uri sent, processRouteSet request = some (uri, sent) ∧ Rewritten request sent) ↔
      RewritesCorrectly request := by
  rcases processRouteSet_cases request with
    ⟨hloose, hprocess⟩ | ⟨before, route, after, hheaders, hstrict, hbefore, hprocess⟩
  · -- every route is loose, and nothing changes
    rw [hprocess]
    unfold RewritesCorrectly
    cases hroutes : Headers.routes request.headers with
    | nil => exact iff_of_true ⟨_, _, rfl, by rw [Rewritten, hroutes]; trivial⟩ trivial
    | cons topmost others =>
      have htopmost := lrParam_of_mem hloose (hroutes ▸ List.mem_cons_self)
      refine iff_of_true ⟨_, _, rfl, (rewritten_cons_loose hroutes htopmost).mpr rfl⟩ ?_
      simp only [htopmost, if_true]
      exact .inl hloose
  · rw [hprocess]
    simp only [Option.some.injEq, Prod.mk.injEq, ↓existsAndEq, true_and]
    unfold RewritesCorrectly
    have hsplit : Headers.routes request.headers =
        Headers.routes before ++ route :: Headers.routes after := by
      rw [hheaders, Headers.routes_append, Headers.routes_cons_route]
    cases hroutes : Headers.routes before with
    | nil =>
      -- the topmost route is the strict one that is taken out
      rw [hroutes, List.nil_append] at hsplit
      have hothers : Headers.routes (before ++ after) = Headers.routes after := by
        rw [Headers.routes_append, hroutes]
        rfl
      have hfilter : (before ++ after).filter (fun h => !h.isRoute) =
          request.headers.filter fun h => !h.isRoute := by
        rw [hheaders, List.filter_append, List.filter_append]
        rfl
      rw [rewritten_cons_strict hsplit hstrict, hsplit]
      simp only [hstrict, Bool.false_eq_true, if_false, Headers.filter_insertRoute, hfilter,
        and_true]
      rw [← hothers, routes_insertRoute_eq_iff]
    | cons topmost others =>
      rw [hroutes, List.cons_append] at hsplit
      have htopmost : topmost.nameAddr.uri.lrParam = true :=
        lrParam_of_mem hbefore (hroutes ▸ List.mem_cons_self)
      have hsome : ¬ ∀ h ∈ request.headers, h.isStrictRoute = false := by
        intro hall
        have hroute := hall (.route route) (by rw [hheaders]; simp)
        simp [Header.isStrictRoute, hstrict] at hroute
      rw [rewritten_cons_loose hsplit htopmost, hsplit]
      simp only [htopmost, if_true, hsome, false_or]
      rw [strictStays_iff hheaders hstrict hbefore (by rw [hroutes]; simp)]
      constructor
      · intro hsame
        exact congrArg Request.headers hsame
      · intro hsame
        rw [hsame]

/-- A call of `b` by way of the strict routers `p` and `q`. -/
def byStrictRouters : Request where
  reqLine := ⟨.invite, hostUri "b" false⟩
  headers := [.route (.ofUri (hostUri "p" false)), .route (.ofUri (hostUri "q" false))]

/-- The Request-URI is not rewritten, and comes in front of the last route. -/
theorem not_processRouteSet_rewrites :
    ¬ ∀ request : Request, ∃ uri sent, processRouteSet request = some (uri, sent) ∧
      Rewritten request sent := by
  intro hall
  obtain ⟨uri, sent, hsent, hrewritten⟩ := hall byStrictRouters
  have hprocess : processRouteSet byStrictRouters = some (hostUri "p" false,
      { byStrictRouters with
        headers := [.route (.ofUri (hostUri "b" false)),
          .route (.ofUri (hostUri "q" false))] }) := rfl
  cases hprocess.symm.trans hsent
  have huri : hostUri "b" false = hostUri "p" false := hrewritten.1
  exact absurd huri (by decide)

end Endpoint

end Rssip
