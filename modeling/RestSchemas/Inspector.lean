import RestSchemas.Host
import RestSchemas.StableSort
import Mathlib.Data.Char
import Mathlib.Data.List.Lex
import Mathlib.Data.Prod.Lex

/-!
# The endpoint inspector

`EndpointInspector.get_api_endpoints(patterns, prefix)` walks the URL conf in
declaration order. A `RegexURLPattern` whose callback is a REST framework view adds one
endpoint per allowed method; a `RegexURLResolver` adds the endpoints of its nested
patterns, found by a recursive call with the prefix extended by its regex. Every call
sorts the list it has built by `endpoint_ordering` before returning it, so a resolver's
endpoints are sorted once inside the recursive call and again with their siblings'.

`getApiEndpoints_eq_pySorted` : the result is the stable sort of the plain depth-first
enumeration `enumerateEndpoints`, so the inner sorts reorder nothing, lose nothing and
duplicate nothing. The proof is an induction over the URL conf
(`sameKeyOrder_getApiEndpointsLoop`): the loop's list lists each key's endpoints in the
enumeration's order, because sorting a block keeps that order (`sameKeyOrder_pySorted`)
and a list with that order sorts to the same list (`pySorted_congr`).

`mem_getApiEndpoints_iff` : an endpoint is listed exactly when its callback is that of a
`RegexURLPattern` the walk reaches through any number of resolvers (`ConfLeaf`), its path
is the one the prefix and the regexes on the way give, the path and callback pass
`should_include_endpoint`, and its method is one of the callback's allowed methods.

The example URL confs here (a plain view, a router's viewset, pairs of routes whose keys
are prefix-related, and a view whose permission check depends on the user) are the
inputs of the example runs of this and the later modules.
-/

namespace RestSchemas

open Py

variable (lib : Lib)

/-- `EndpointInspector.get_path_from_regex`: Django's `simplify_regex`, then `<` and `>`
replaced by the braces of a URI template. -/
def getPathFromRegex (pathRegex : String) : String :=
  ⟨(lib.simplifyRegex pathRegex).data.map fun c =>
    if c = '<' then '\x7b' else if c = '>' then '\x7d' else c⟩

/-- `is_api_view(callback)`: `callback.cls` is set and derives from `APIView`. -/
def isApiView (callback : Callback) : Bool :=
  match callback.cls with
  | some cls => cls.isApiView
  | none => false

theorem isApiView_iff {callback : Callback} :
    isApiView callback ↔ ∃ cls, callback.cls = some cls ∧ cls.isApiView := by
  unfold isApiView
  cases callback.cls <;> simp

/-- `EndpointInspector.should_include_endpoint(path, callback)`: REST framework views,
except the `.json`-style format suffix routes. -/
def shouldIncludeEndpoint (path : String) (callback : Callback) : Bool :=
  if !isApiView callback then false
  else if endswith path ".{format}" || endswith path ".{format}/" then false
  else true

/-- `EndpointInspector.get_allowed_methods(callback)`: the upper-cased keys of
`callback.actions` on a viewset, the class's `allowed_methods` but `OPTIONS` and `HEAD`
otherwise. (`callback.cls` is set on the callbacks it is called on.) -/
def getAllowedMethods (callback : Callback) : List String :=
  match callback.actions, callback.cls with
  | some actions, _ => actions.map fun a => upper a.1
  | none, some cls => cls.allowedMethods.filter fun m => m ∉ ["OPTIONS", "HEAD"]
  | none, none => []

/-- The priority `endpoint_ordering` gives a method. -/
def methodPriority (method : String) : Nat :=
  match method with
  | "GET" => 0
  | "POST" => 1
  | "PUT" => 2
  | "PATCH" => 3
  | "DELETE" => 4
  | _ => 5

/-- `endpoint_ordering(endpoint)`: the tuple `(path, method_priority)`, compared as
Python compares tuples, the path by its code points. -/
def endpointOrdering (e : Endpoint) : Lex (List Char × Nat) :=
  toLex (e.path.data, methodPriority e.method)

/-- The endpoints the loop of `get_api_endpoints` appends for one `RegexURLPattern`. -/
def patternEndpoints (pathRegex : String) (callback : Callback) : List Endpoint :=
  let path := getPathFromRegex lib pathRegex
  if shouldIncludeEndpoint path callback then
    (getAllowedMethods callback).map fun method => ⟨path, method, callback⟩
  else []

mutual

/-- What the loop of `get_api_endpoints` appends for one entry of the URL conf: a
pattern's endpoints, or a resolver's, returned sorted by the recursive call. -/
def entryEndpoints : UrlPattern → String → List Endpoint
  | .pattern regex callback, pre => patternEndpoints lib (pre ++ regex) callback
  | .resolver regex urlPatterns, pre =>
    pySorted endpointOrdering (getApiEndpointsLoop urlPatterns (pre ++ regex) [])

/-- The loop of `get_api_endpoints(patterns, prefix)` over `patterns`, from the list
`acc` built so far. -/
def getApiEndpointsLoop : List UrlPattern → String → List Endpoint → List Endpoint
  | [], _, acc => acc
  | pattern :: patterns, pre, acc =>
    getApiEndpointsLoop patterns pre (acc ++ entryEndpoints pattern pre)

end

/-- `EndpointInspector.get_api_endpoints(patterns, prefix)`. -/
def getApiEndpoints (patterns : List UrlPattern) (pre : String) : List Endpoint :=
  pySorted endpointOrdering (getApiEndpointsLoop lib patterns pre [])

mutual

/-- The depth-first enumeration of one entry of the URL conf, with no sorting. -/
def enumerateEntry : UrlPattern → String → List Endpoint
  | .pattern regex callback, pre => patternEndpoints lib (pre ++ regex) callback
  | .resolver regex urlPatterns, pre => enumerateEndpoints urlPatterns (pre ++ regex)

/-- The depth-first enumeration of the URL conf in declaration order, with no sorting. -/
def enumerateEndpoints : List UrlPattern → String → List Endpoint
  | [], _ => []
  | pattern :: patterns, pre => enumerateEntry pattern pre ++ enumerateEndpoints patterns pre

end

mutual

/-- An entry's endpoints, sorted or not, list each key's endpoints in the same order. -/
theorem sameKeyOrder_entryEndpoints :
    ∀ (pattern : UrlPattern) (pre : String),
      SameKeyOrder endpointOrdering (entryEndpoints lib pattern pre) (enumerateEntry lib pattern pre)
  | .pattern regex callback, pre => by
    simp only [entryEndpoints, enumerateEntry]
    rfl
  | .resolver regex urlPatterns, pre => by
    simp only [entryEndpoints, enumerateEntry]
    simpa using (sameKeyOrder_pySorted _).trans
      (sameKeyOrder_getApiEndpointsLoop urlPatterns (pre ++ regex) [])

/-- The loop's list lists each key's endpoints as the enumeration does. -/
theorem sameKeyOrder_getApiEndpointsLoop :
    ∀ (patterns : List UrlPattern) (pre : String) (acc : List Endpoint),
      SameKeyOrder endpointOrdering (getApiEndpointsLoop lib patterns pre acc)
        (acc ++ enumerateEndpoints lib patterns pre)
  | [], _, acc => by simp only [getApiEndpointsLoop, enumerateEndpoints, List.append_nil]; rfl
  | pattern :: patterns, pre, acc => by
    simp only [getApiEndpointsLoop, enumerateEndpoints, ← List.append_assoc]
    exact (sameKeyOrder_getApiEndpointsLoop patterns pre _).trans
      (.append (.append (.refl acc) (sameKeyOrder_entryEndpoints pattern pre)) (.refl _))

end

/-- `get_api_endpoints` returns the stable sort of the depth-first enumeration by
`(path, method priority)`: the result is sorted, and lists the endpoints of each key as
the enumeration does, none lost and none duplicated. -/
theorem getApiEndpoints_eq_pySorted (patterns : List UrlPattern) (pre : String) :
    getApiEndpoints lib patterns pre =
        pySorted endpointOrdering (enumerateEndpoints lib patterns pre) ∧
      (getApiEndpoints lib patterns pre).Sorted
        (fun a b => endpointOrdering a ≤ endpointOrdering b) ∧
      SameKeyOrder endpointOrdering (getApiEndpoints lib patterns pre)
        (enumerateEndpoints lib patterns pre) := by
  have h : getApiEndpoints lib patterns pre =
      pySorted endpointOrdering (enumerateEndpoints lib patterns pre) :=
    pySorted_congr (by simpa using sameKeyOrder_getApiEndpointsLoop lib patterns pre [])
  exact ⟨h, h ▸ sorted_pySorted _, h ▸ sameKeyOrder_pySorted _⟩

/-! ## Example URL confs -/

/-- A plain `APIView` with a `get` and a `post` handler and no docstring. -/
def usersView : ViewClass :=
  { isApiView := true, allowedMethods := ["GET", "POST", "OPTIONS"] }

/-- `url(r'^users/$', UsersView.as_view())`. -/
def usersConf : List UrlPattern :=
  [.pattern "^users/$" { cls := some usersView }]

/-- A viewset with a `list` and a `create` action and no docstrings. -/
def usersViewSet : ViewClass :=
  { isApiView := true, allowedMethods := ["GET", "POST", "OPTIONS"] }

/-- `UsersViewSet.as_view({'get': 'list', 'post': 'create'})`, the list route a router
registers. -/
def routerCallback : Callback :=
  { cls := some usersViewSet, actions := some [("get", "list"), ("post", "create")] }

/-- `url(r'^users/$', UsersViewSet.as_view(...))`. -/
def routerConf : List UrlPattern :=
  [.pattern "^users/$" routerCallback]

/-- `url(r'^users/list/$', ...)` and an organisation's user list `^<org>/users/$`, whose
path has the template variable `org`: two plain views with a `get` handler. -/
def shadowConf : List UrlPattern :=
  [.pattern "^users/list/$" { cls := some { isApiView := true, allowedMethods := ["GET"] } },
    .pattern "^<org>/users/$" { cls := some { isApiView := true, allowedMethods := ["GET"] } }]

/-- A plain view that lets anyone read and only a signed-in user write, as
`IsAuthenticatedOrReadOnly` does. -/
def readOnlyView : ViewClass :=
  { isApiView := true, allowedMethods := ["GET", "POST"],
    checkPermissions := fun r => r.method = "GET" || r.user.isSome }

/-- `url(r'^users/$', UsersView.as_view())` with `readOnlyView`. -/
def readOnlyConf : List UrlPattern :=
  [.pattern "^users/$" { cls := some readOnlyView }]

/-- `url(r'^users/list/$', UsersView.as_view())` and `url(r'^users/$', UsersView.as_view())`:
two plain views with a `get` handler. -/
def prefixConf : List UrlPattern :=
  [.pattern "^users/list/$" { cls := some { isApiView := true, allowedMethods := ["GET"] } },
    .pattern "^users/$" { cls := some { isApiView := true, allowedMethods := ["GET"] } }]

/-- `ConfLeaf patterns pre pathRegex callback`: the URL conf `patterns`, walked under the
prefix `pre`, has a `RegexURLPattern` with callback `callback`, and `pathRegex` is `pre`
followed by the regexes of the resolvers on the way to it and by its own. -/
inductive ConfLeaf : List UrlPattern → String → String → Callback → Prop
  | here {regex : String} {callback : Callback} {rest : List UrlPattern} {pre : String} :
      ConfLeaf (.pattern regex callback :: rest) pre (pre ++ regex) callback
  | nested {regex : String} {urlPatterns rest : List UrlPattern} {pre pathRegex : String}
      {callback : Callback} :
      ConfLeaf urlPatterns (pre ++ regex) pathRegex callback →
        ConfLeaf (.resolver regex urlPatterns :: rest) pre pathRegex callback
  | later {pattern : UrlPattern} {rest : List UrlPattern} {pre pathRegex : String}
      {callback : Callback} :
      ConfLeaf rest pre pathRegex callback → ConfLeaf (pattern :: rest) pre pathRegex callback

section ConfLeaf

variable {regex pre pathRegex : String} {callback c : Callback} {urlPatterns rest : List UrlPattern}

theorem not_confLeaf_nil : ¬ConfLeaf [] pre pathRegex callback :=
  nofun

theorem confLeaf_pattern_cons_iff :
    ConfLeaf (.pattern regex c :: rest) pre pathRegex callback ↔
      (pathRegex = pre ++ regex ∧ callback = c) ∨ ConfLeaf rest pre pathRegex callback := by
  constructor
  · intro h
    cases h with
    | here => exact .inl ⟨rfl, rfl⟩
    | later h => exact .inr h
  · rintro (⟨rfl, rfl⟩ | h)
    · exact .here
    · exact .later h

theorem confLeaf_resolver_cons_iff :
    ConfLeaf (.resolver regex urlPatterns :: rest) pre pathRegex callback ↔
      ConfLeaf urlPatterns (pre ++ regex) pathRegex callback ∨
        ConfLeaf rest pre pathRegex callback := by
  constructor
  · intro h
    cases h with
    | nested h => exact .inl h
    | later h => exact .inr h
  · rintro (h | h)
    · exact .nested h
    · exact .later h

end ConfLeaf

theorem shouldIncludeEndpoint_eq_true {path : String} {callback : Callback} :
    shouldIncludeEndpoint path callback = true ↔ isApiView callback = true ∧
      endswith path ".{format}" = false ∧ endswith path ".{format}/" = false := by
  unfold shouldIncludeEndpoint
  cases isApiView callback <;> cases endswith path ".{format}" <;>
    cases endswith path ".{format}/" <;> simp

/-- A pattern's endpoints: one per allowed method of an included callback. -/
theorem mem_patternEndpoints {pathRegex : String} {callback : Callback} {e : Endpoint} :
    e ∈ patternEndpoints lib pathRegex callback ↔
      e.callback = callback ∧ e.path = getPathFromRegex lib pathRegex ∧
        shouldIncludeEndpoint e.path e.callback ∧ e.method ∈ getAllowedMethods e.callback := by
  obtain ⟨path, method, c⟩ := e
  unfold patternEndpoints
  dsimp only
  split
  · simp only [List.mem_map, Endpoint.mk.injEq]
    constructor
    · rintro ⟨m, hm, rfl, rfl, rfl⟩
      exact ⟨rfl, rfl, ‹_›, hm⟩
    · rintro ⟨rfl, rfl, -, hm⟩
      exact ⟨method, hm, rfl, rfl, rfl⟩
  · simp only [List.not_mem_nil, false_iff, not_and]
    rintro rfl rfl hinc
    contradiction

/-- The enumeration lists exactly the allowed methods of the included leaves of the URL
conf, each at the path of the regexes on the way to it. -/
theorem mem_enumerateEndpoints_iff : ∀ (patterns : List UrlPattern) (pre : String) (e : Endpoint),
    e ∈ enumerateEndpoints lib patterns pre ↔
      ∃ pathRegex, ConfLeaf patterns pre pathRegex e.callback ∧
        e.path = getPathFromRegex lib pathRegex ∧ shouldIncludeEndpoint e.path e.callback ∧
        e.method ∈ getAllowedMethods e.callback
  | [], _, e => by simp [enumerateEndpoints, not_confLeaf_nil]
  | .pattern regex callback :: rest, pre, e => by
    simp only [enumerateEndpoints, enumerateEntry, List.mem_append, mem_patternEndpoints,
      mem_enumerateEndpoints_iff rest pre e, confLeaf_pattern_cons_iff, or_and_right, exists_or,
      and_assoc, exists_eq_left]
  | .resolver regex urlPatterns :: rest, pre, e => by
    simp only [enumerateEndpoints, enumerateEntry, List.mem_append,
      mem_enumerateEndpoints_iff urlPatterns (pre ++ regex) e, mem_enumerateEndpoints_iff rest pre e,
      confLeaf_resolver_cons_iff, or_and_right, exists_or]

theorem mem_getApiEndpoints_iff_mem_enumerateEndpoints {patterns : List UrlPattern}
    {pre : String} {e : Endpoint} :
    e ∈ getApiEndpoints lib patterns pre ↔ e ∈ enumerateEndpoints lib patterns pre := by
  simpa using ((sameKeyOrder_pySorted _).trans
    (sameKeyOrder_getApiEndpointsLoop lib patterns pre [])).mem_iff

/-- `get_api_endpoints` lists an endpoint exactly when its callback is that of a
`RegexURLPattern` of the URL conf, reached through any number of resolvers, whose path,
made from the prefix and the regexes on the way, passes `should_include_endpoint`, and its
method is one of the callback's allowed methods. -/
theorem mem_getApiEndpoints_iff (patterns : List UrlPattern) (pre : String) (e : Endpoint) :
    e ∈ getApiEndpoints lib patterns pre ↔
      ∃ pathRegex, ConfLeaf patterns pre pathRegex e.callback ∧
        e.path = getPathFromRegex lib pathRegex ∧ shouldIncludeEndpoint e.path e.callback ∧
        e.method ∈ getAllowedMethods e.callback :=
  (mem_getApiEndpoints_iff_mem_enumerateEndpoints lib).trans
    (mem_enumerateEndpoints_iff lib patterns pre e)

/-- An endpoint `get_api_endpoints` may list: a REST framework view outside the format
suffix routes, with one of its allowed methods. -/
def Listable (e : Endpoint) : Prop :=
  isApiView e.callback ∧ endswith e.path ".{format}" = false ∧
    endswith e.path ".{format}/" = false ∧ e.method ∈ getAllowedMethods e.callback

/-- Every endpoint `get_api_endpoints` lists has a REST framework view as callback, a
path that does not end in `.{format}` or `.{format}/`, and one of the callback's allowed
methods. -/
theorem listable_of_mem_getApiEndpoints {patterns : List UrlPattern} {pre : String}
    {e : Endpoint} (he : e ∈ getApiEndpoints lib patterns pre) : Listable e := by
  obtain ⟨_, -, -, hinc, hm⟩ := (mem_enumerateEndpoints_iff lib patterns pre e).mp
    ((mem_getApiEndpoints_iff_mem_enumerateEndpoints lib).mp he)
  obtain ⟨hapi, hformat, hformat'⟩ := shouldIncludeEndpoint_eq_true.mp hinc
  exact ⟨hapi, hformat, hformat', hm⟩

/-! ## Dropping endpoints -/

theorem enumerateEndpoints_append (ps qs : List UrlPattern) (pre : String) :
    enumerateEndpoints lib (ps ++ qs) pre =
      enumerateEndpoints lib ps pre ++ enumerateEndpoints lib qs pre := by
  induction ps with
  | nil => rfl
  | cons p ps ih =>
    rw [List.cons_append]
    simp only [enumerateEndpoints, ih, List.append_assoc]

theorem getApiEndpoints_eq_pySorted_enumerate (patterns : List UrlPattern) (pre : String) :
    getApiEndpoints lib patterns pre =
      pySorted endpointOrdering (enumerateEndpoints lib patterns pre) :=
  pySorted_congr (by simpa using sameKeyOrder_getApiEndpointsLoop lib patterns pre [])

/-- A filter that drops every endpoint of one pattern of the URL conf sees the same
endpoints, in the same order, with that pattern as without it. -/
theorem filter_getApiEndpoints_of_pattern (p : Endpoint → Bool) (pre post : List UrlPattern)
    (regex pfx : String) (callback : Callback)
    (hdrop : ∀ e ∈ patternEndpoints lib (pfx ++ regex) callback, p e = false) :
    (getApiEndpoints lib (pre ++ .pattern regex callback :: post) pfx).filter p =
      (getApiEndpoints lib (pre ++ post) pfx).filter p := by
  have hnil : (patternEndpoints lib (pfx ++ regex) callback).filter p = [] :=
    List.filter_eq_nil_iff.mpr fun e he => by simp [hdrop e he]
  simp only [getApiEndpoints_eq_pySorted_enumerate, pySorted_filter, enumerateEndpoints_append,
    enumerateEndpoints, enumerateEntry, List.filter_append, hnil, List.nil_append]

end RestSchemas
