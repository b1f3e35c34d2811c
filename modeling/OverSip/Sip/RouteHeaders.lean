import OverSip.Sip.HeaderFaithfulness
import OverSip.Sip.SipUriParser

/-!
# The Route values that the parser stores

The Route header of a request is stored twice: as `NameAddr` objects in `@routes`, and as strings in
`@headers["Route"]`. The object is made in front of a value, at the colon or at the comma (`init_route_uri`), and
filled by the actions of its URI; the string is written behind the value, at the next comma or header line
(`write_hdr_value`). Here the actions of both kinds are run in the order in which the grammar attaches them
(`grammar_sip_headers.rl`), over a request with its division into lines and values.

`parsedRoutes_eq` and `routeHeader_eq` say what is stored: one object and one string for each value.
-/

namespace OverSip

/-! ## Written Route headers -/

/-- A `route_value`: the display name, which may be in quotes, the white space of `LAQUOT`, the URI and what stands
behind the ">". -/
structure RouteText where
  displayName : Option (Bytes × Bool)
  white : Bytes
  uri : Bytes
  parts : SipUriParts
  params : Bytes
  readSipUri_uri : readSipUri uri = some parts

namespace RouteText

variable (value : RouteText)

def text : Bytes := value.displayName.elim [] Prod.fst ++ value.white ++ 60 :: (value.uri ++ 62 :: value.params)

theorem text_ne_nil : value.text ≠ [] := List.append_ne_nil_of_right_ne_nil _ (List.cons_ne_nil _ _)

end RouteText

/-- A line of the Route header: the values with a comma behind, and the last value. -/
structure RouteLine where
  name : Bytes
  colon : Bytes
  parts : List (RouteText × Comma)
  last : RouteText
  downcase_name : downcase name = ascii "route"

namespace RouteLine

def values (l : RouteLine) : List RouteText := l.parts.map Prod.fst ++ [l.last]

/-- The line without the division of the values. -/
def header (l : RouteLine) : HeaderLine where
  kind := .list
  name := l.name
  colon := l.colon
  parts := l.parts.map fun part => ⟨part.1.text, part.2⟩
  tail := l.last.text
  kind_of_parts _ := Or.inr rfl
  tail_of_parts _ := l.last.text_ne_nil

end RouteLine

/-- A header line of a request. The name of a line of another header is not "Route". -/
inductive RequestLine
  | route (l : RouteLine)
  | other (l : HeaderLine) (h : downcase l.name ≠ ascii "route")

namespace RequestLine

def header : RequestLine → HeaderLine
  | route l => l.header
  | other l _ => l

def routeValues : RequestLine → List RouteText
  | route l => l.values
  | other _ _ => []

end RequestLine

/-- A request on the buffer. -/
structure RequestText where
  startLine : Bytes
  lines : List RequestLine
  body : Bytes
  startLine_ne_nil : startLine ≠ []

namespace RequestText

def written (r : RequestText) : WrittenMessage where
  startLine := r.startLine
  lines := r.lines.map RequestLine.header
  body := r.body
  startLine_ne_nil := r.startLine_ne_nil

/-- The Route values of all the lines. -/
def routeValues (r : RequestText) : List RouteText := r.lines.flatMap RequestLine.routeValues

end RequestText

/-! ## The actions -/

/-- A `NameAddr` of `@routes`, which has no variables when it is made. -/
structure ParsedRoute where
  displayName : Option Bytes := none
  fields : Option UriFields := none
  uri : Option Bytes := none

/-- The variables of the parser that the actions of Route use, and `@routes`. -/
structure RouteState where
  routeFound : Bool := false
  doUri : Bool := false
  routes : Option (List ParsedRoute) := none

/-- The actions of a Route line; `displayName` and `uri` stand for those of the parts of a name-addr. -/
inductive RouteAction
  | initRoute
  | initRouteUri
  | doRouteUri
  | displayName (text : Bytes) (quoted : Bool)
  | uri (text : Bytes) (parts : SipUriParts)

/-- `get_uri_object` for `uri_owner_route`. -/
def modifyLast (f : ParsedRoute → ParsedRoute) (routes : List ParsedRoute) : List ParsedRoute :=
  match routes.getLast? with
  | some route => routes.dropLast ++ [f route]
  | none => routes

/-- `uri_display_name`: without the quotes, and nothing when it is empty. -/
def displayNameOf (text : Bytes) (quoted : Bool) : Option Bytes :=
  let name := if quoted then (text.drop 1).dropLast else text
  if name = [] then none else some name

namespace RouteState

variable (inet : Inet)

def act (s : RouteState) : RouteAction → RouteState
  | .initRoute => if s.routeFound then s else { s with routes := some [], routeFound := true }
  | .initRouteUri => { s with routes := s.routes.map fun routes => routes ++ [{}] }
  | .doRouteUri => { s with doUri := true }
  | .displayName text quoted =>
    if s.doUri then
      match displayNameOf text quoted with
      | some name =>
        { s with routes := s.routes.map (modifyLast fun route => { route with displayName := some name }) }
      | none => s
    else s
  | .uri text parts =>
    -- `write_uri` is the last of the actions of the URI
    if s.doUri then
      { s with
        doUri := false
        routes := s.routes.map (modifyLast fun route => { route with fields := some (parts.fields inet), uri := some text }) }
    else s

def run (s : RouteState) (actions : List RouteAction) : RouteState := actions.foldl (act inet) s

theorem run_append (s : RouteState) (actions actions' : List RouteAction) :
    s.run inet (actions ++ actions') = (s.run inet actions).run inet actions' := List.foldl_append

end RouteState

/-- An action of the parser: at an offset, or on `@routes`. -/
inductive RequestAction
  | mark (pos : ℕ) (action : MarkAction)
  | route (action : RouteAction)

namespace RequestAction

def mark? : RequestAction → Option (ℕ × MarkAction)
  | mark pos action => some (pos, action)
  | route _ => none

def route? : RequestAction → Option RouteAction
  | mark _ _ => none
  | route action => some action

end RequestAction

/-- The parser with what it stores. -/
structure RequestParser where
  marks : Marks := {}
  route : RouteState := {}

namespace RequestParser

def act (inet : Inet) (buffer : Bytes) (p : RequestParser) : RequestAction → RequestParser
  | .mark pos action => { p with marks := p.marks.act buffer (pos, action) }
  | .route action => { p with route := p.route.act inet action }

def run (inet : Inet) (buffer : Bytes) (p : RequestParser) (actions : List RequestAction) : RequestParser :=
  actions.foldl (act inet buffer) p

end RequestParser

/-! ## The actions of a request -/

def RouteText.actions (value : RouteText) : List RouteAction :=
  (value.displayName.elim [] fun d => [.displayName d.1 d.2]) ++ [.uri value.uri value.parts]

open RequestAction in
/-- A value in front of a comma. The next object is made before this value is written. -/
def routePartTrace (pos : ℕ) (value : RouteText) (comma : Comma) : List RequestAction :=
  [mark pos .startHdrValue, route .doRouteUri] ++ value.actions.map route ++
    [mark (pos + value.text.length) .storeHdrValue, route .initRouteUri,
      mark (pos + (value.text ++ comma.text).length) .writeHdrValue]

def routePartsTrace (pos : ℕ) : List (RouteText × Comma) → List RequestAction
  | [] => []
  | (value, comma) :: parts =>
    routePartTrace pos value comma ++ routePartsTrace (pos + (value.text ++ comma.text).length) parts

open RequestAction in
/-- The last value, which is written at the next header line. -/
def routeTailTrace (pos : ℕ) (value : RouteText) : List RequestAction :=
  [mark pos .startHdrValue, route .doRouteUri] ++ value.actions.map route ++
    [mark (pos + value.text.length) .storeHdrValue]

open RequestAction in
/-- `Route` -/
def RouteLine.trace (pos : ℕ) (l : RouteLine) : List RequestAction :=
  let valuePos := pos + l.name.length + l.colon.length
  [mark pos .writeHdrValue, mark pos .startHdrField, mark (pos + l.name.length) .writeHdrField,
      route .initRoute, route .initRouteUri] ++
    routePartsTrace valuePos l.parts ++
    routeTailTrace (valuePos + (HeaderLine.partsText l.header.parts).length) l.last

def RequestLine.trace (entersEmpty : Bool) (pos : ℕ) : RequestLine → List RequestAction
  | route l => l.trace pos
  | other l _ => (lineTrace entersEmpty pos l).map fun a => .mark a.1 a.2

def requestLinesTrace (entersEmpty : Bool) (pos : ℕ) : List RequestLine → List RequestAction
  | [] => []
  | l :: lines => l.trace entersEmpty pos ++ requestLinesTrace entersEmpty (pos + l.header.text.length) lines

namespace RequestText

variable (r : RequestText)

def trace (entersEmpty : Bool) : List RequestAction :=
  requestLinesTrace entersEmpty r.startLine.length r.lines ++
    [.mark (r.startLine.length + (WrittenMessage.linesText r.written.lines).length) .writeHdrValue]

/-- What the parser has stored of the request. -/
def parsed (inet : Inet) (entersEmpty : Bool) : RequestParser :=
  ({} : RequestParser).run inet r.written.text (r.trace entersEmpty)

end RequestText

/-! ## The two kinds of actions apart -/

namespace RequestParser

variable (inet : Inet) (buffer : Bytes)

/-- The actions on the marks and those on `@routes` do not see each other. -/
theorem run_marks (p : RequestParser) (actions : List RequestAction) :
    (p.run inet buffer actions).marks = p.marks.run buffer (actions.filterMap RequestAction.mark?) := by
  induction actions generalizing p with
  | nil => rfl
  | cons action actions ih =>
    cases action with
    | mark pos action => exact ih { p with marks := p.marks.act buffer (pos, action) }
    | route action => exact ih { p with route := p.route.act inet action }

theorem run_route (p : RequestParser) (actions : List RequestAction) :
    (p.run inet buffer actions).route = p.route.run inet (actions.filterMap RequestAction.route?) := by
  induction actions generalizing p with
  | nil => rfl
  | cons action actions ih =>
    cases action with
    | mark pos action => exact ih { p with marks := p.marks.act buffer (pos, action) }
    | route action => exact ih { p with route := p.route.act inet action }

end RequestParser

theorem filterMap_mark_routes (actions : List RouteAction) :
    (actions.map RequestAction.route).filterMap RequestAction.mark? = [] := by
  induction actions with
  | nil => rfl
  | cons action actions ih => exact ih

theorem filterMap_route_routes (actions : List RouteAction) :
    (actions.map RequestAction.route).filterMap RequestAction.route? = actions := by
  induction actions with
  | nil => rfl
  | cons action actions ih => exact congrArg (action :: ·) ih

theorem filterMap_mark_marks (marks : List (ℕ × MarkAction)) :
    (marks.map fun a => RequestAction.mark a.1 a.2).filterMap RequestAction.mark? = marks := by
  induction marks with
  | nil => rfl
  | cons a marks ih => exact congrArg (a :: ·) ih

theorem filterMap_route_marks (marks : List (ℕ × MarkAction)) :
    (marks.map fun a => RequestAction.mark a.1 a.2).filterMap RequestAction.route? = [] := by
  induction marks with
  | nil => rfl
  | cons a marks ih => exact ih

theorem marks_routePartTrace (pos : ℕ) (value : RouteText) (comma : Comma) :
    (routePartTrace pos value comma).filterMap RequestAction.mark? = partTrace false pos ⟨value.text, comma⟩ := by
  unfold routePartTrace partTrace
  rw [List.filterMap_append, List.filterMap_append, filterMap_mark_routes, genericStores_false, Bool.false_and,
    genericStores_false]
  rfl

theorem marks_routePartsTrace (pos : ℕ) (parts : List (RouteText × Comma)) :
    (routePartsTrace pos parts).filterMap RequestAction.mark? =
      partsTrace false pos (parts.map fun part => ⟨part.1.text, part.2⟩) := by
  induction parts generalizing pos with
  | nil => rfl
  | cons part parts ih =>
    show ((routePartTrace pos part.1 part.2 ++ routePartsTrace _ parts).filterMap RequestAction.mark?) = _
    rw [List.filterMap_append, marks_routePartTrace, ih]
    rfl

theorem marks_routeTailTrace (entersEmpty : Bool) (pos : ℕ) (value : RouteText) :
    (routeTailTrace pos value).filterMap RequestAction.mark? = tailTrace entersEmpty false pos value.text := by
  have hcond : ¬(value.text = [] ∧ entersEmpty = false) := fun h => value.text_ne_nil h.1
  unfold routeTailTrace tailTrace
  rw [List.filterMap_append, List.filterMap_append, filterMap_mark_routes, genericStores_false, if_neg hcond]
  rfl

/-- The marks of a Route line are those of the line without the division of its values. -/
theorem marks_trace (entersEmpty : Bool) (pos : ℕ) (l : RequestLine) :
    (l.trace entersEmpty pos).filterMap RequestAction.mark? = lineTrace entersEmpty pos l.header := by
  cases l with
  | other l h => exact filterMap_mark_marks _
  | route l =>
    show (l.trace pos).filterMap RequestAction.mark? = lineTrace entersEmpty pos l.header
    unfold RouteLine.trace lineTrace
    have halive : aliveBehind l.header.kind.hasGeneric l.header.parts = false := Bool.false_and _
    rw [List.filterMap_append, List.filterMap_append, marks_routePartsTrace, marks_routeTailTrace entersEmpty, halive]
    rfl

theorem marks_requestLinesTrace (entersEmpty : Bool) (pos : ℕ) (lines : List RequestLine) :
    (requestLinesTrace entersEmpty pos lines).filterMap RequestAction.mark? =
      linesTrace entersEmpty pos (lines.map RequestLine.header) := by
  induction lines generalizing pos with
  | nil => rfl
  | cons l lines ih =>
    show ((l.trace entersEmpty pos ++ requestLinesTrace entersEmpty _ lines).filterMap RequestAction.mark?) = _
    rw [List.filterMap_append, marks_trace, ih]
    rfl

theorem RequestText.headers_parsed (r : RequestText) (inet : Inet) (entersEmpty : Bool) :
    (r.parsed inet entersEmpty).marks.headers = r.written.headers entersEmpty := by
  have hmarks : (r.trace entersEmpty).filterMap RequestAction.mark? = messageTrace entersEmpty r.written := by
    unfold RequestText.trace messageTrace
    rw [List.filterMap_append, marks_requestLinesTrace]
    rfl
  unfold RequestText.parsed WrittenMessage.headers
  rw [RequestParser.run_marks, hmarks]

/-! ## The objects -/

/-- The object of a value. -/
def RouteText.parsed (inet : Inet) (value : RouteText) : ParsedRoute where
  displayName := value.displayName.bind fun d => displayNameOf d.1 d.2
  fields := some (value.parts.fields inet)
  uri := some value.uri

@[simp] theorem modifyLast_concat (f : ParsedRoute → ParsedRoute) (routes : List ParsedRoute) (route : ParsedRoute) :
    modifyLast f (routes ++ [route]) = routes ++ [f route] := by
  unfold modifyLast
  rw [List.getLast?_concat, List.dropLast_concat]

namespace RouteState

variable (inet : Inet)

/-- The object that was made last is filled. -/
theorem run_value (value : RouteText) (routes : List ParsedRoute) (doUri : Bool) :
    ({ routeFound := true, doUri, routes := some (routes ++ [{}]) } : RouteState).run inet
        (.doRouteUri :: value.actions) =
      { routeFound := true, doUri := false, routes := some (routes ++ [value.parsed inet]) } := by
  unfold RouteText.actions RouteText.parsed
  cases value.displayName with
  | none =>
    show ({ routeFound := true, doUri := false, routes := some (modifyLast _ (routes ++ [{}])) } : RouteState) = _
    rw [modifyLast_concat]
    rfl
  | some d =>
    show (({ routeFound := true, doUri := true, routes := some (routes ++ [{}]) } : RouteState).act inet
      (.displayName d.1 d.2)).act inet (.uri value.uri value.parts) = _
    have hnamed : ({ routeFound := true, doUri := true, routes := some (routes ++ [{}]) } : RouteState).act inet
        (.displayName d.1 d.2) =
        { routeFound := true
          doUri := true
          routes := some (routes ++ [{ displayName := displayNameOf d.1 d.2 }]) } := by
      unfold act
      dsimp only
      rw [if_pos rfl]
      cases displayNameOf d.1 d.2 with
      | none => rfl
      | some name =>
        dsimp only [Option.map_some]
        rw [modifyLast_concat]
    rw [hnamed]
    show ({ routeFound := true, doUri := false, routes := some (modifyLast _ (routes ++ [_])) } : RouteState) = _
    rw [modifyLast_concat]
    rfl

/-- The values in front of a comma: each fills its object and makes the next one. -/
theorem run_parts (parts : List (RouteText × Comma)) (routes : List ParsedRoute) (doUri : Bool) :
    ∃ doUri', ({ routeFound := true, doUri, routes := some (routes ++ [{}]) } : RouteState).run inet
        (parts.flatMap fun part => .doRouteUri :: part.1.actions ++ [.initRouteUri]) =
      { routeFound := true
        doUri := doUri'
        routes := some (routes ++ parts.map (fun part => part.1.parsed inet) ++ [{}]) } := by
  induction parts generalizing routes doUri with
  | nil =>
    refine ⟨doUri, ?_⟩
    rw [List.map_nil, List.append_nil]
    rfl
  | cons part parts ih =>
    obtain ⟨doUri', hparts⟩ := ih (routes ++ [part.1.parsed inet]) false
    refine ⟨doUri', ?_⟩
    rw [List.flatMap_cons, run_append, run_append, run_value]
    show ({ routeFound := true, doUri := false, routes := some (routes ++ [part.1.parsed inet] ++ [{}]) } :
      RouteState).run inet _ = _
    rw [hparts, List.map_cons, List.append_assoc routes, List.singleton_append]

end RouteState

/-- The actions of a line on `@routes`. -/
def RequestLine.routeActions : RequestLine → List RouteAction
  | route l =>
    [.initRoute, .initRouteUri] ++ (l.parts.flatMap fun part => .doRouteUri :: part.1.actions ++ [.initRouteUri]) ++
      .doRouteUri :: l.last.actions
  | other _ _ => []

theorem routes_routePartsTrace (pos : ℕ) (parts : List (RouteText × Comma)) :
    (routePartsTrace pos parts).filterMap RequestAction.route? =
      parts.flatMap fun part => .doRouteUri :: part.1.actions ++ [.initRouteUri] := by
  induction parts generalizing pos with
  | nil => rfl
  | cons part parts ih =>
    show ((routePartTrace pos part.1 part.2 ++ routePartsTrace _ parts).filterMap RequestAction.route?) = _
    have hpart : (routePartTrace pos part.1 part.2).filterMap RequestAction.route? =
        .doRouteUri :: part.1.actions ++ [.initRouteUri] := by
      unfold routePartTrace
      rw [List.filterMap_append, List.filterMap_append, filterMap_route_routes]
      rfl
    rw [List.filterMap_append, hpart, ih, List.flatMap_cons]

theorem routes_trace (entersEmpty : Bool) (pos : ℕ) (l : RequestLine) :
    (l.trace entersEmpty pos).filterMap RequestAction.route? = l.routeActions := by
  cases l with
  | other l h => exact filterMap_route_marks _
  | route l =>
    have htail : ∀ tailPos, (routeTailTrace tailPos l.last).filterMap RequestAction.route? =
        .doRouteUri :: l.last.actions := by
      intro tailPos
      unfold routeTailTrace
      rw [List.filterMap_append, List.filterMap_append, filterMap_route_routes]
      exact List.append_nil _
    show (l.trace pos).filterMap RequestAction.route? = _
    unfold RouteLine.trace
    rw [List.filterMap_append, List.filterMap_append, routes_routePartsTrace, htail]
    rfl

/-- The objects that are there, and one for each of the values. -/
def storedRoutes (routes : Option (List ParsedRoute)) (values : List ParsedRoute) : Option (List ParsedRoute) :=
  if values = [] then routes else some (routes.getD [] ++ values)

/-- `@routes` is there as soon as a Route was found. -/
def RouteState.Consistent (s : RouteState) : Prop := s.routeFound = s.routes.isSome

/-- One line. -/
theorem RouteState.run_line (inet : Inet) {s : RouteState} (hs : s.Consistent) (l : RequestLine) :
    (s.run inet l.routeActions).Consistent ∧
      (s.run inet l.routeActions).routes = storedRoutes s.routes (l.routeValues.map (RouteText.parsed inet)) := by
  cases l with
  | other l h => exact ⟨hs, rfl⟩
  | route l =>
    obtain ⟨routeFound, doUri, routes⟩ := s
    have hinit : (RouteState.mk routeFound doUri routes).run inet [.initRoute, .initRouteUri] =
        { routeFound := true, doUri, routes := some (routes.getD [] ++ [{}]) } := by
      obtain rfl : routeFound = routes.isSome := hs
      cases routes with
      | none => rfl
      | some routes => rfl
    obtain ⟨doUri', hparts⟩ := run_parts inet l.parts (routes.getD []) doUri
    have hrun : (RouteState.mk routeFound doUri routes).run inet (RequestLine.route l).routeActions =
        { routeFound := true
          doUri := false
          routes := some (routes.getD [] ++ l.values.map (RouteText.parsed inet)) } := by
      show (RouteState.mk routeFound doUri routes).run inet ([.initRoute, .initRouteUri] ++ _ ++ _) = _
      rw [run_append, run_append, hinit, hparts, run_value]
      unfold RouteLine.values
      rw [List.map_append, List.map_map, List.append_assoc]
      rfl
    have hne : l.values.map (RouteText.parsed inet) ≠ [] := by
      unfold RouteLine.values
      rw [List.map_append]
      exact List.append_ne_nil_of_right_ne_nil _ (List.cons_ne_nil _ _)
    rw [hrun]
    exact ⟨rfl, (if_neg hne).symm⟩

theorem storedRoutes_storedRoutes (routes : Option (List ParsedRoute)) (values values' : List ParsedRoute) :
    storedRoutes (storedRoutes routes values) values' = storedRoutes routes (values ++ values') := by
  unfold storedRoutes
  by_cases hvalues : values = []
  · rw [if_pos hvalues, hvalues, List.nil_append]
  · rw [if_neg hvalues, if_neg (List.append_ne_nil_of_left_ne_nil hvalues _)]
    by_cases hvalues' : values' = []
    · rw [if_pos hvalues', hvalues', List.append_nil]
    · rw [if_neg hvalues', Option.getD_some, List.append_assoc]

/-- All the lines. -/
theorem RouteState.run_lines (inet : Inet) (entersEmpty : Bool) (pos : ℕ) {s : RouteState} (hs : s.Consistent)
    (lines : List RequestLine) :
    (s.run inet ((requestLinesTrace entersEmpty pos lines).filterMap RequestAction.route?)).routes =
      storedRoutes s.routes ((lines.flatMap RequestLine.routeValues).map (RouteText.parsed inet)) := by
  induction lines generalizing s pos with
  | nil => rfl
  | cons l lines ih =>
    obtain ⟨hline, hroutes⟩ := run_line inet hs l
    show (s.run inet ((l.trace entersEmpty pos ++ requestLinesTrace entersEmpty _ lines).filterMap
      RequestAction.route?)).routes = _
    rw [List.filterMap_append, routes_trace, run_append, ih _ hline, hroutes, storedRoutes_storedRoutes,
      List.flatMap_cons, List.map_append]

/-! ## The strings -/

/-- The key of the Route header. -/
def routeKey : Bytes := headerize (ascii "Route")

theorem longName_route : longName (ascii "Route") = ascii "route" := by decide

/-- No compact name stands for Route. -/
theorem longName_ne_route {name : Bytes} (h : downcase name ≠ ascii "route") : longName name ≠ ascii "route" := by
  have htable : ∀ cf ∈ commonHeaders, cf.shortName.isSome = true → downcase cf.name ≠ ascii "route" := by decide
  unfold longName
  split
  · next c =>
    cases hfind : findShortHeaderName c with
    | none =>
      intro heq
      have hlength := congrArg List.length heq
      rw [Option.getD_none, length_downcase] at hlength
      have hone : (1 : ℕ) = (ascii "route").length := hlength
      exact absurd hone (by decide)
    | some long =>
      obtain ⟨cf, hcf, rfl⟩ := Option.map_eq_some_iff.mp hfind
      have hshort := List.find?_some hcf
      rw [beq_iff_eq] at hshort
      rw [Option.getD_some]
      exact htable cf (List.mem_of_find?_eq_some hcf) (by rw [hshort]; rfl)
  · exact h

theorem headerize_eq_routeKey_iff (name : Bytes) : headerize name = routeKey ↔ downcase name = ascii "route" := by
  unfold routeKey
  rw [headerize_eq_iff]
  show longName name = longName (ascii "Route") ↔ _
  rw [longName_route]
  constructor
  · intro h
    by_contra hne
    exact longName_ne_route hne h
  · intro h
    have hlength := congrArg List.length h
    rw [length_downcase] at hlength
    have hne : name.length ≠ 1 := by
      rw [hlength]
      decide
    rw [longName_of_length hne, h]

/-- An Array of the headers map has a value. -/
def NonemptyArrays (headers : OrderedMap Bytes (List Bytes)) : Prop := ∀ key, headers.find? key ≠ some []

theorem nonemptyArrays_pushHeader {headers : OrderedMap Bytes (List Bytes)} (h : NonemptyArrays headers) (f v : Bytes) :
    NonemptyArrays (pushHeader headers f v) := by
  intro key
  unfold pushHeader
  cases hfind : headers.find? f with
  | some el =>
    dsimp only
    by_cases hkey : key = f
    · rw [hkey, OrderedMap.find?_set_self]
      exact fun heq => List.append_ne_nil_of_right_ne_nil el (List.cons_ne_nil v []) (Option.some.inj heq)
    · rw [OrderedMap.find?_set_of_ne _ _ hkey]
      exact h key
  | none =>
    dsimp only
    by_cases hkey : key = f
    · rw [hkey, OrderedMap.find?_set_self]
      exact fun heq => List.cons_ne_nil v [] (Option.some.inj heq)
    · rw [OrderedMap.find?_set_of_ne _ _ hkey]
      exact h key

theorem nonemptyArrays_run (buffer : Bytes) {m : Marks} (h : NonemptyArrays m.headers) (trace : List (ℕ × MarkAction)) :
    NonemptyArrays (m.run buffer trace).headers := by
  induction trace generalizing m with
  | nil => exact h
  | cons a trace ih =>
    apply ih (m := m.act buffer a)
    obtain ⟨pos, action⟩ := a
    cases action with
    | writeHdrValue =>
      show NonemptyArrays (m.writeHdrValue buffer).headers
      unfold Marks.writeHdrValue
      split
      · exact h
      · exact nonemptyArrays_pushHeader h _ _
    | startHdrField => exact h
    | writeHdrField => exact h
    | startHdrValue => exact h
    | storeHdrValue => exact h

/-- Behind values that are no `generic_hdr_value` a fold of a comma has no effect. -/
theorem partsUnfolded_false (parts : List HeaderPart) : PartsUnfolded false parts := by
  induction parts with
  | nil => trivial
  | cons part parts ih => exact ⟨fun h => absurd h Bool.false_ne_true, ih⟩

namespace RequestText

variable (r : RequestText) (inet : Inet) (entersEmpty : Bool)

/-- What a line has for the key of Route. -/
theorem recorded_route {l : RequestLine} {recorded : List Bytes} (h : Marks.Recorded entersEmpty l.header recorded) :
    (if headerize l.header.name = routeKey then recorded else []) = l.routeValues.map RouteText.text := by
  cases l with
  | other l hname => exact if_neg fun hkey => hname ((headerize_eq_routeKey_iff l.name).mp hkey)
  | route l =>
    have hrefreshed : l.header.Refreshed entersEmpty := by
      constructor
      · exact partsUnfolded_false _
      · exact Or.inl l.last.text_ne_nil
    have hvalues : l.header.values = l.values.map RouteText.text := by
      unfold HeaderLine.values RouteLine.values
      rw [List.map_append]
      show (l.parts.map _).map _ ++ _ = _
      rw [List.map_map, List.map_map]
      rfl
    have hkey : headerize l.header.name = routeKey := (headerize_eq_routeKey_iff l.name).mpr l.downcase_name
    refine (if_pos hkey).trans ?_
    rw [h.eq_iff.mpr hrefreshed]
    exact hvalues

/-- What the lines have for the key of Route, one behind the other. -/
theorem recorded_routes {blocks : List (HeaderLine × List Bytes)} {lines : List RequestLine}
    (hblocks : blocks.map Prod.fst = lines.map RequestLine.header)
    (hall : ∀ block ∈ blocks, Marks.Recorded entersEmpty block.1 block.2) :
    (blocks.flatMap fun block => if headerize block.1.name = routeKey then block.2 else []) =
      (lines.flatMap RequestLine.routeValues).map RouteText.text := by
  induction lines generalizing blocks with
  | nil =>
    rw [List.map_eq_nil_iff.mp hblocks]
    rfl
  | cons l lines ih =>
    obtain ⟨block, rest, rfl, hblock, hrest⟩ := List.map_eq_cons_iff.mp hblocks
    rw [List.forall_mem_cons, hblock] at hall
    have hline := recorded_route entersEmpty hall.1
    rw [List.flatMap_cons, List.flatMap_cons, List.map_append, ih hrest hall.2, hblock, hline]

/-- `@routes` of a parsed request. -/
theorem parsedRoutes_eq : (r.parsed inet entersEmpty).route.routes =
    if r.routeValues = [] then none else some (r.routeValues.map (RouteText.parsed inet)) := by
  unfold parsed
  rw [RequestParser.run_route]
  unfold trace
  rw [List.filterMap_append, RouteState.run_append]
  refine (RouteState.run_lines inet entersEmpty _ (show RouteState.Consistent {} from rfl) r.lines).trans ?_
  unfold storedRoutes
  show (if (r.routeValues.map _) = [] then none else some ([] ++ _)) = _
  by_cases hvalues : r.routeValues = []
  · rw [if_pos hvalues, hvalues]
    rfl
  · have hne : r.routeValues.map (RouteText.parsed inet) ≠ [] := fun h => hvalues (List.map_eq_nil_iff.mp h)
    rw [if_neg hvalues, if_neg hne]
    rfl

/-- `@headers["Route"]` of a parsed request. -/
theorem routeHeader_eq : (r.parsed inet entersEmpty).marks.headers.find? routeKey =
    if r.routeValues = [] then none else some (r.routeValues.map RouteText.text) := by
  obtain ⟨blocks, hblocks, hall, hvalues⟩ := r.written.headers_recorded entersEmpty
  have hvaluesAt : valuesAt (r.written.headers entersEmpty) routeKey = r.routeValues.map RouteText.text := by
    rw [hvalues routeKey]
    exact recorded_routes entersEmpty hblocks hall
  have hne : NonemptyArrays (r.written.headers entersEmpty) :=
    nonemptyArrays_run r.written.text (fun key h => absurd h.symm (Option.some_ne_none [])) _
  rw [headers_parsed]
  unfold valuesAt at hvaluesAt
  cases hfind : (r.written.headers entersEmpty).find? routeKey with
  | none =>
    rw [hfind] at hvaluesAt
    rw [if_pos (List.map_eq_nil_iff.mp hvaluesAt.symm)]
  | some el =>
    rw [hfind] at hvaluesAt
    have hel : el = r.routeValues.map RouteText.text := hvaluesAt
    by_cases hvalues : r.routeValues = []
    · rw [hvalues] at hel
      rw [hel] at hfind
      exact absurd hfind (hne routeKey)
    · rw [if_neg hvalues, hel]

end RequestText

end OverSip
