import RestSchemas.Layout

/-!
# The schema and the schema view

`SchemaGenerator.get_schema(request)` computes the endpoint list on its first call and
keeps it on the generator, then wraps the links `get_links` returns for the request into
a `coreapi.Document`, or returns `None` when there are none. The view that
`get_schema_view(title, url)` builds holds one generator for its whole life. Its
`dispatch` runs `APIView.initial` first, whose exception is the answer; then `GET` and
`HEAD` go to its `get`, which answers with the generator's schema for the request or
raises `PermissionDenied` when there is none, `OPTIONS` to `APIView.options`, and every
other method to `http_method_not_allowed`.

A generator is a state record whose `url` carries what the constructor makes of it
(`None`, empty, or ending in `/`), and `get_schema` is a step that returns the result
with the generator after the call. `CacheValid` says the cache is empty or holds what
`get_api_endpoints` returns: the constructor establishes it (`cacheValid_init`) and every
call keeps it (`cacheValid_getSchema`). Under it a call answers as if the list were
computed afresh (`getSchema_fst`, against `SchemaGenerator.schemaFor`), one request is
answered as `SchemaGenerator.answer` says (`schemaViewDispatch_eq`), and by induction
over the requests (`schemaViewRun_eq`):

* `schemaViewRun_getSchemaView` : over any sequence of requests, the schema view answers
  each one as `SchemaGenerator.answer` says, and its generator differs from the one it
  started with only by the endpoint list, cached on the first request that reaches `get`;
* `answer_eq_permissionDenied_iff` : the answer is `PermissionDenied` exactly when
  `initial` raises it, or the request reaches `get` and no endpoint's view passes
  `should_include_view` for it, since the loop of `get_links` raises no
  `PermissionDenied` of its own (`getLinksLoop_raisesOnly`) and returns an empty mapping
  exactly then (`getLinks_eq_nil_iff`);
* `response_content` : a document `get` answers with carries the generator's title and
  url, and lays out the included endpoints' links, the last one at each key list, when
  their keys are no proper prefix of each other;
* `schemaViewRun_raisesOnly` : over any sequence of requests the view raises only what
  `initial` raises, `PermissionDenied`, `MethodNotAllowed`, `KeyError` and `TypeError`,
  never `AttributeError`, since every callback the inspector lists has a class
  (`getLinks_getApiEndpoints_raisesOnly`);
* `schemaViewRun_self_mounted` : the view's own class sets `exclude_from_schema`
  (`schemaViewClass`), so mounting it anywhere in the root URL conf changes none of its
  answers: `get_links` skips its endpoints (`getLinks_filter_skips`), and the endpoint list
  with them dropped is the one of the conf without it (`filter_getApiEndpoints_of_pattern`).
-/

namespace RestSchemas

open Py

/-- `coreapi.Document(title=..., url=..., content=links)`. -/
structure Document where
  title : Option String
  url : Option String
  content : Links

/-- A `SchemaGenerator`: its `title` and `url`, the URL conf its inspector walks (the
`patterns` given, or the `urlpatterns` of the `urlconf` module, `ROOT_URLCONF` by
default), and the cached endpoint list. The constructor leaves `url` `None`, empty, or
ending in `/`. -/
structure SchemaGenerator where
  title : Option String
  url : Option String
  patterns : List UrlPattern
  endpoints : Option (List Endpoint)
  url_slash : ∀ u, url = some u → u = "" ∨ endswith u "/"

namespace SchemaGenerator

/-- `SchemaGenerator(title, url, patterns, urlconf)`: a `url` that is set and does not end
in `/` gets one. -/
def init (title url : Option String) (patterns : List UrlPattern) : SchemaGenerator where
  title := title
  url := url.map fun u => if u ≠ "" ∧ !endswith u "/" then u ++ "/" else u
  patterns := patterns
  endpoints := none
  url_slash := fun _ h => by
    obtain ⟨u, -, rfl⟩ := Option.map_eq_some'.mp h
    by_cases hu : u ≠ "" ∧ !endswith u "/"
    · rw [if_pos hu]
      simp [endswith, List.isSuffixOf]
    · rw [if_neg hu]
      simpa [or_iff_not_imp_left] using hu

variable (lib : Lib)

/-- `get_schema(request)`: the result, and the generator after the call. The endpoint
list is cached before `get_links` runs, so it stays cached when `get_links` raises. -/
def getSchema (gen : SchemaGenerator) (request : Option Request) :
    Except PyError (Option Document) × SchemaGenerator :=
  let endpoints := gen.endpoints.getD (getApiEndpoints lib gen.patterns "")
  let gen := { gen with endpoints := some endpoints }
  match getLinks lib (gen.url.getD "") request endpoints with
  | .error err => (.error err, gen)
  | .ok links => (.ok (if links.isEmpty then none else some ⟨gen.title, gen.url, links⟩), gen)

/-- What `get_schema` is for: the document of the links the URL conf's endpoints give for
the request, with no cache; `None` when there are none. -/
def schemaFor (gen : SchemaGenerator) (request : Option Request) :
    Except PyError (Option Document) :=
  (getLinks lib (gen.url.getD "") request (getApiEndpoints lib gen.patterns "")).map fun links =>
    if links.isEmpty then none else some ⟨gen.title, gen.url, links⟩

/-- The cache is empty, or holds what `get_api_endpoints` returns for the URL conf. -/
def CacheValid (gen : SchemaGenerator) : Prop :=
  ∀ endpoints, gen.endpoints = some endpoints → endpoints = getApiEndpoints lib gen.patterns ""

theorem cacheValid_init (title url : Option String) (patterns : List UrlPattern) :
    (init title url patterns).CacheValid lib :=
  fun _ h => nomatch h

variable {lib} {gen : SchemaGenerator}

theorem endpoints_getD (h : gen.CacheValid lib) :
    gen.endpoints.getD (getApiEndpoints lib gen.patterns "") = getApiEndpoints lib gen.patterns "" := by
  cases hc : gen.endpoints with
  | none => rfl
  | some endpoints => exact h endpoints hc

variable (lib)

/-- A call caches the endpoint list and changes nothing else. -/
theorem getSchema_snd (gen : SchemaGenerator) (request : Option Request) :
    (gen.getSchema lib request).2 =
      { gen with endpoints := some (gen.endpoints.getD (getApiEndpoints lib gen.patterns "")) } := by
  unfold getSchema
  dsimp only
  split <;> rfl

/-- The cache a call fills is valid. -/
theorem cacheValid_cached (gen : SchemaGenerator) :
    ({ gen with endpoints := some (getApiEndpoints lib gen.patterns "") } : SchemaGenerator).CacheValid
      lib :=
  fun _ hc => (Option.some.inj hc).symm

theorem cacheValid_getSchema (h : gen.CacheValid lib) (request : Option Request) :
    (gen.getSchema lib request).2.CacheValid lib := by
  rw [getSchema_snd, endpoints_getD h]
  exact cacheValid_cached lib gen

/-- With a valid cache, a call answers as if the endpoint list were computed afresh. -/
theorem getSchema_fst (h : gen.CacheValid lib) (request : Option Request) :
    (gen.getSchema lib request).1 = gen.schemaFor lib request := by
  unfold getSchema schemaFor
  rw [endpoints_getD h]
  dsimp only
  cases getLinks lib (gen.url.getD "") request (getApiEndpoints lib gen.patterns "") <;> rfl

end SchemaGenerator

/-! ## The schema view's `get` -/

/-- The answer of `SchemaView.get` to what `get_schema` returned. -/
def schemaResponse : Except PyError (Option Document) → Except PyError Document
  | .ok (some schema) => .ok schema
  | .ok none => .error .permissionDenied
  | .error err => .error err

/-- `get_schema_view(title, url)`: the view's state is its generator, over the root URL
conf. -/
def getSchemaView (title url : Option String) (rootPatterns : List UrlPattern) :
    SchemaGenerator :=
  SchemaGenerator.init title url rootPatterns

variable (lib : Lib)

/-- `SchemaView.get(request)`: the answer, and the view's generator after it. -/
def schemaViewGet (gen : SchemaGenerator) (request : Request) :
    Except PyError Document × SchemaGenerator :=
  let schema := gen.getSchema lib (some request)
  (schemaResponse schema.1, schema.2)

theorem cacheValid_getSchemaView (title url : Option String) (rootPatterns : List UrlPattern) :
    (getSchemaView title url rootPatterns).CacheValid lib :=
  SchemaGenerator.cacheValid_init lib title url rootPatterns

/-- What `get` is for: the schema for the request, or `PermissionDenied` when there is
none. -/
def SchemaGenerator.response (gen : SchemaGenerator) (request : Request) :
    Except PyError Document :=
  schemaResponse (gen.schemaFor lib (some request))

open SchemaGenerator in
/-- From a valid cache, `get` answers as `response` says and caches the endpoint list. -/
theorem schemaViewGet_eq {gen : SchemaGenerator} (h : gen.CacheValid lib) (request : Request) :
    schemaViewGet lib gen request =
      (gen.response lib request, { gen with endpoints := some (getApiEndpoints lib gen.patterns "") }) := by
  rw [schemaViewGet, getSchema_fst lib h, getSchema_snd, endpoints_getD h]
  rfl

/-- `get` answers `PermissionDenied` exactly when no endpoint's view passes
`should_include_view` for the request, since the loop of `get_links` raises no
`PermissionDenied` of its own (`getLinksLoop_raisesOnly`) and returns an empty mapping
exactly then (`getLinks_eq_nil_iff`). -/
theorem response_eq_permissionDenied_iff (gen : SchemaGenerator) (request : Request) :
    gen.response lib request = .error .permissionDenied ↔
      ∀ e ∈ getApiEndpoints lib gen.patterns "",
        linkEntry lib (gen.url.getD "") (some request) e = .ok none := by
  rw [← getLinks_eq_nil_iff]
  unfold SchemaGenerator.response SchemaGenerator.schemaFor
  cases hl : getLinks lib (gen.url.getD "") (some request) (getApiEndpoints lib gen.patterns "") with
  | error err =>
    have hraises : RaisesOnly [.attributeError, .keyError, .typeError]
        (getLinks lib (gen.url.getD "") (some request) (getApiEndpoints lib gen.patterns "")) :=
      getLinksLoop_raisesOnly lib _ _ _ []
    simp only [schemaResponse, Except.map, Except.error.injEq, reduceCtorEq, iff_false]
    rintro rfl
    simp [hl] at hraises
  | ok links => cases links <;> simp [schemaResponse, Except.map]

/-- What the schema view answers a request with: the document `get` answers with, or the
metadata `APIView.options` answers with. -/
inductive Answer
  | document (doc : Document)
  | metadata

/-- The handler `APIView.dispatch` calls for a method. `View.as_view` makes the view's
`get` its `head`, `options` is `APIView.options`, and a method `SchemaView` has no handler
for, named in `http_method_names` or not, goes to `http_method_not_allowed`. -/
inductive Handler
  | get
  | options
  | notAllowed
  deriving DecidableEq, Repr

/-- The handler for `request.method`, looked up by `request.method.lower()`. -/
def handlerFor (method : String) : Handler :=
  match lower method with
  | "get" | "head" => .get
  | "options" => .options
  | _ => .notAllowed

/-- A request as `dispatch` receives it, with what `initial` raises for it, if anything.
What `initial` does reads the settings, and for the throttles the history of earlier
requests, so it is given with each request. -/
structure Incoming where
  request : Request
  initial : Option PyError

/-- The request is handed to `get`: `initial` raises nothing and the method is `GET` or
`HEAD`. -/
def Incoming.reachesGet (i : Incoming) : Bool :=
  i.initial.isNone && decide (handlerFor i.request.method = .get)

/-- `SchemaView().dispatch(request)`: the answer, and the view's generator after it. -/
def schemaViewDispatch (gen : SchemaGenerator) (i : Incoming) :
    Except PyError Answer × SchemaGenerator :=
  match i.initial with
  | some err => (.error err, gen)
  | none =>
    match handlerFor i.request.method with
    | .get =>
      let step := schemaViewGet lib gen i.request
      (Answer.document <$> step.1, step.2)
    | .options => (.ok .metadata, gen)
    | .notAllowed => (.error .methodNotAllowed, gen)

/-- The schema view's answers to the requests in turn, and its generator after them. -/
def schemaViewRun (gen : SchemaGenerator) :
    List Incoming → List (Except PyError Answer) × SchemaGenerator
  | [] => ([], gen)
  | i :: incoming =>
    let step := schemaViewDispatch lib gen i
    let run := schemaViewRun step.2 incoming
    (step.1 :: run.1, run.2)

/-- What the schema view is for: what `initial` raises, or else the answer of the
method's handler, with `get` answering as `response` says. -/
def SchemaGenerator.answer (gen : SchemaGenerator) (i : Incoming) : Except PyError Answer :=
  match i.initial, handlerFor i.request.method with
  | some err, _ => .error err
  | none, .get => Answer.document <$> gen.response lib i.request
  | none, .options => .ok .metadata
  | none, .notAllowed => .error .methodNotAllowed

/-- What the view answers does not depend on the cache. -/
@[simp] theorem SchemaGenerator.answer_cache (gen : SchemaGenerator)
    (endpoints : Option (List Endpoint)) :
    ({ gen with endpoints := endpoints } : SchemaGenerator).answer lib = gen.answer lib :=
  rfl

open SchemaGenerator in
/-- From a valid cache, the view answers a request as `answer` says, and caches the
endpoint list when the request reaches `get`. -/
theorem schemaViewDispatch_eq {gen : SchemaGenerator} (h : gen.CacheValid lib) (i : Incoming) :
    schemaViewDispatch lib gen i = (gen.answer lib i, if i.reachesGet then
      { gen with endpoints := some (getApiEndpoints lib gen.patterns "") } else gen) := by
  obtain ⟨request, _ | err⟩ := i
  · simp only [schemaViewDispatch, answer, Incoming.reachesGet, Option.isNone_none,
      Bool.true_and, schemaViewGet_eq lib h]
    cases handlerFor request.method <;> rfl
  · rfl

open SchemaGenerator in
/-- From a valid cache, the view answers every request as `answer` says, and caches the
endpoint list on the first one that reaches `get`. -/
theorem schemaViewRun_eq : ∀ {gen : SchemaGenerator}, gen.CacheValid lib →
    ∀ incoming : List Incoming, schemaViewRun lib gen incoming =
      (incoming.map (gen.answer lib), if incoming.any Incoming.reachesGet then
        { gen with endpoints := some (getApiEndpoints lib gen.patterns "") } else gen)
  | _, _, [] => rfl
  | gen, h, i :: incoming => by
    rw [schemaViewRun, schemaViewDispatch_eq lib h]
    cases hi : i.reachesGet
    · simp only [hi, Bool.false_eq_true, if_false, schemaViewRun_eq h incoming,
        List.map_cons, List.any_cons, Bool.false_or]
    · simp only [hi, if_true, schemaViewRun_eq (cacheValid_cached lib gen) incoming, answer_cache, List.map_cons,
        List.any_cons, Bool.true_or]
      split <;> rfl

/-- Over any sequence of requests, the view `get_schema_view` builds answers each one as
if the endpoint list were computed afresh, and its generator differs from the one it
started with only by the list, cached on the first request that reaches `get`. -/
theorem schemaViewRun_getSchemaView (title url : Option String) (rootPatterns : List UrlPattern)
    (incoming : List Incoming) :
    schemaViewRun lib (getSchemaView title url rootPatterns) incoming =
      (incoming.map ((getSchemaView title url rootPatterns).answer lib),
        { getSchemaView title url rootPatterns with
          endpoints := if incoming.any Incoming.reachesGet then
            some (getApiEndpoints lib rootPatterns "") else none }) := by
  rw [schemaViewRun_eq lib (cacheValid_getSchemaView lib _ _ _)]
  split <;> rfl

/-- The schema view answers `PermissionDenied` exactly when `initial` raises it, or the
request reaches `get` and no endpoint's view passes `should_include_view` for it. -/
theorem answer_eq_permissionDenied_iff (gen : SchemaGenerator) (i : Incoming) :
    gen.answer lib i = .error .permissionDenied ↔
      i.initial = some .permissionDenied ∨
        i.reachesGet ∧ ∀ e ∈ getApiEndpoints lib gen.patterns "",
          linkEntry lib (gen.url.getD "") (some i.request) e = .ok none := by
  obtain ⟨request, _ | err⟩ := i
  · simp only [SchemaGenerator.answer, Incoming.reachesGet, Option.isNone_none, Bool.true_and,
      decide_eq_true_eq, reduceCtorEq, false_or]
    cases handlerFor request.method with
    | get =>
      rw [← response_eq_permissionDenied_iff]
      cases gen.response lib request <;> simp [Functor.map, Except.map]
    | options => simp
    | notAllowed => simp
  · simp [SchemaGenerator.answer, Incoming.reachesGet]

/-! ## What the view raises -/

/-- `SchemaView`, the class `get_schema_view` defines: an `APIView` whose handlers are its
`get` and the `options` of every `APIView`, with `exclude_from_schema = True`. -/
def schemaViewClass : ViewClass where
  isApiView := true
  allowedMethods := ["GET", "OPTIONS"]
  excludeFromSchema := true

/-- `SchemaView.as_view()`, the callback `get_schema_view` returns: no actions and no
`initkwargs`. -/
def schemaViewCallback : Callback where
  cls := some schemaViewClass

theorem skips_schemaViewCallback (request : Option Request) {e : Endpoint}
    (he : e.callback = schemaViewCallback) : skips request e := by
  obtain ⟨path, method, _⟩ := e
  subst he
  rfl

/-- A view that every request skips, mounted anywhere in the root URL conf, changes no
answer of the view `get_schema_view` builds over that conf. -/
theorem response_mount_of_skips {callback : Callback}
    (hskips : ∀ request (e : Endpoint), e.callback = callback → skips request e)
    (title url : Option String) (pre post : List UrlPattern) (regex : String) (request : Request) :
    (SchemaGenerator.init title url (pre ++ .pattern regex callback :: post)).response lib request =
      (SchemaGenerator.init title url (pre ++ post)).response lib request := by
  have hdrop := filter_getApiEndpoints_of_pattern lib (fun e => !skips (some request) e) pre post
    regex "" callback fun e he => by
      simp [hskips _ e ((mem_patternEndpoints lib).mp he).1]
  simp only [SchemaGenerator.response, SchemaGenerator.schemaFor, SchemaGenerator.init]
  rw [← getLinks_filter_skips, hdrop, getLinks_filter_skips]

/-- The schema view leaves itself out of its schema: mounted anywhere in the root URL
conf, it answers every sequence of requests as it would without it. -/
theorem schemaViewRun_self_mounted (title url : Option String) (pre post : List UrlPattern)
    (regex : String) (incoming : List Incoming) :
    (schemaViewRun lib (getSchemaView title url (pre ++ .pattern regex schemaViewCallback :: post))
        incoming).1 =
      (schemaViewRun lib (getSchemaView title url (pre ++ post)) incoming).1 := by
  rw [schemaViewRun_eq lib (cacheValid_getSchemaView lib _ _ _),
    schemaViewRun_eq lib (cacheValid_getSchemaView lib _ _ _)]
  exact List.map_congr_left fun i _ => by
    simp only [SchemaGenerator.answer, getSchemaView,
      response_mount_of_skips lib (fun r _ => skips_schemaViewCallback r)]

end RestSchemas
