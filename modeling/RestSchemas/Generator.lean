import RestSchemas.Fields
import RestSchemas.NestedDict
import RestSchemas.Inspector

/-!
# The schema generator

`SchemaGenerator.get_links` turns each endpoint into a throwaway view (`create_view`),
drops the views that are excluded from the schema or whose permission check fails for
the request (`should_include_view`), and writes each remaining endpoint's link into a
nested mapping under the keys `get_keys` derives from its path, method and action.
The schema and the schema view over it are in `RestSchemas.Schema`.

An endpoint is left out exactly when its view is marked `exclude_from_schema` or, given a
request, fails its permission check (`linkEntry_eq_none_iff`). On a router's viewset the
view always gets an action, since the endpoint's methods come from the same action map
(`createView_action_of_mem_getApiEndpoints`).

A view without an `action` attribute is laid out under its path's named components and
`list` or the CRUD action of its method, with no action map needed
(`getKeys_plainView`). Distinct endpoints can get the same keys, or keys one of which is
a proper prefix of the other's, and `insert_into` then overwrites a link or raises.

* `getLinks_of_prefixFree` : when the included endpoints' links and keys are computed
  without error and no key list is a prefix of another's, `get_links` completes, and its
  leaves are exactly those links at those keys, through the invariant that the leaf at
  each key list is the link of the last endpoint with those keys
  (`getLinksLoop_leavesAreLast`); `RestSchemas.Layout` says what it does for every list;
* `getLinks_raises_of_prefix_keys` : a URL conf whose endpoints have distinct paths and
  methods but prefix-related keys makes `get_links` raise;
* whatever the keys, every leaf `get_links` returns is the link of an included endpoint
  at its keys (`getLinks_leaf_sound`), under the named components of its path
  (`getLinks_leaf_keys`), the mapping is empty exactly when every endpoint is left out
  (`getLinks_eq_nil_iff`), and the only exceptions are `AttributeError`, `KeyError` and
  `TypeError` (`getLinks_raisesOnly`).

The lemmas about runs of the loop that return go through one inversion of a step
(`getLinksLoop_cons_eq_ok`).
-/

namespace RestSchemas

open Py

/-- A key of the schema document: a `str`, or `None`, which `get_keys` appends when a
viewset's action map has no entry for the method. -/
abbrev DocKey := Option String

/-- The nested mapping `get_links` builds. -/
abbrev Links := List (DocKey × Node DocKey Link)

/-- `SchemaGenerator.default_mapping`. -/
def defaultMapping : List (String × String) :=
  [("get", "retrieve"), ("post", "create"), ("put", "update"), ("patch", "partial_update"),
    ("delete", "destroy")]

/-- `default_mapping[method.lower()]`, raising `KeyError` for any other method. -/
def defaultAction (method : String) : Except PyError String :=
  match getItem defaultMapping (lower method) with
  | some action => .ok action
  | none => .error .keyError

/-- `SchemaGenerator.create_view(callback, method, request)`: an instance of
`callback.cls` with `initkwargs` set on it, no request state, the callback's action map,
the action it maps the method to (`metadata` for `OPTIONS`), and a copy of the request
with the endpoint's method. The hooks `get_link` calls later see the instance in that
state, so the view holds what they return for its final action and request.
`callback.cls` raises `AttributeError` on a plain function. -/
def createView (callback : Callback) (method : String) (request : Option Request) :
    Except PyError View :=
  match callback.cls with
  | none => .error .attributeError
  | some cls =>
    let attrs := callback.initkwargs.foldl InitKwarg.apply cls
    let action : ViewAction :=
      match callback.actions with
      | some actions =>
        if method = "OPTIONS" then .named "metadata"
        else match getItem actions (lower method) with
          | some action => .named action
          | none => .none
      | none => attrs.action
    let request := request.map fun r => { r with method := method }
    .ok { cls := cls, action := action, excludeFromSchema := attrs.excludeFromSchema,
          serializer := attrs.serializer action request,
          paginationFields := attrs.paginationFields action request,
          filterBackends := attrs.filterBackends action request,
          parserMediaTypes := attrs.parserMediaTypes, request := request,
          actionMap := callback.actions, checkPermissions := attrs.checkPermissions }

/-- `SchemaGenerator.should_include_view(path, method, view)`. -/
def shouldIncludeView (view : View) : Bool :=
  if view.excludeFromSchema then false
  else match view.request with
    | none => true
    | some request => view.checkPermissions request

/-- `is_custom_action(action)`; `None` is not a CRUD action. -/
def isCustomAction (action : DocKey) : Bool :=
  match action with
  | some a => a ∉ ["retrieve", "list", "create", "update", "partial_update", "destroy"]
  | none => true

/-- `named_path_components` in `get_keys`: the components of the path stripped of `/`
that hold no template variable. -/
def namedPathComponents (path : String) : List DocKey :=
  ((split (stripChar '/' path) '/').filter fun c => '\x7b' ∉ c.data).map some

/-- `SchemaGenerator.get_keys(path, method, view)`. `len(view.action_map)` raises
`TypeError` when the view has no action map. -/
def getKeys (path method : String) (view : View) : Except PyError (List DocKey) := do
  let action : DocKey ← (match view.action with
    | .named a => pure (some a)
    | .none => pure none
    | .unset =>
      if isListView path method view then pure (some "list") else some <$> defaultAction method)
  let named := namedPathComponents path
  if isCustomAction action then
    match view.actionMap with
    | none => .error .typeError
    | some actionMap =>
      if actionMap.length > 1 then do
        let action ← defaultAction method
        pure (named ++ [some action])
      else pure (named.dropLast ++ [action])
  else pure (named ++ [action])

/-- The loop of `SchemaGenerator.get_links(request)` over the endpoints, writing into
`links`. -/
def getLinksLoop (lib : Lib) (url : String) (request : Option Request) :
    List Endpoint → Links → Except PyError Links
  | [], links => .ok links
  | e :: endpoints, links => do
    let view ← createView e.callback e.method request
    if !shouldIncludeView view then getLinksLoop lib url request endpoints links
    else
      let link ← getLink lib url e.path e.method view
      let keys ← getKeys e.path e.method view
      match insertInto links keys link with
      | (links, none) => getLinksLoop lib url request endpoints links
      | (_, some err) => .error err

/-- `SchemaGenerator.get_links(request)` over the endpoint list, for the generator's
`url` (`""` for `None`). -/
def getLinks (lib : Lib) (url : String) (request : Option Request) (endpoints : List Endpoint) :
    Except PyError Links :=
  getLinksLoop lib url request endpoints []

/-! ## Keys -/

/-- What `get_keys` returns: the path's named components, all of them or all but the
last, followed by one action key. -/
theorem getKeys_eq_ok {path method : String} {view : View} {keys : List DocKey}
    (h : getKeys path method view = .ok keys) :
    ∃ action, keys = namedPathComponents path ++ [action] ∨
      keys = (namedPathComponents path).dropLast ++ [action] := by
  unfold getKeys at h
  simp only [bind, Except.bind, pure, Except.pure] at h
  repeat' split at h
  all_goals cases h
  exacts [⟨_, .inl rfl⟩, ⟨_, .inr rfl⟩, ⟨_, .inl rfl⟩]

/-- A key list ends with the action. -/
theorem getKeys_ne_nil {path method : String} {view : View} {keys : List DocKey}
    (h : getKeys path method view = .ok keys) : keys ≠ [] := by
  obtain ⟨action, rfl | rfl⟩ := getKeys_eq_ok h <;> simp

/-- The actions `default_mapping` gives are CRUD actions. -/
theorem isCustomAction_of_defaultAction {method action : String}
    (h : defaultAction method = .ok action) : isCustomAction (some action) = false := by
  unfold defaultAction at h
  split at h
  · cases h
    have hmem := mem_of_getItem ‹_›
    simp only [defaultMapping, List.mem_cons, Prod.mk.injEq, List.mem_singleton,
      List.not_mem_nil, or_false] at hmem
    rcases hmem with ⟨-, rfl⟩ | ⟨-, rfl⟩ | ⟨-, rfl⟩ | ⟨-, rfl⟩ | ⟨-, rfl⟩ <;> rfl
  · cases h

/-- A view without an `action` attribute never needs an action map: its keys are the
path's named components followed by `list` on a list view, and by the CRUD action
`default_mapping` gives the method otherwise. -/
theorem getKeys_plainView (path method : String) (view : View) (haction : view.action = .unset) :
    getKeys path method view =
      (if isListView path method view then .ok "list" else defaultAction method).map
        fun action => namedPathComponents path ++ [some action] := by
  unfold getKeys
  simp only [haction]
  by_cases hl : isListView path method view
  · simp [hl, isCustomAction, bind, Except.bind, pure, Except.pure, Except.map]
  · cases hd : defaultAction method with
    | error err => simp [hl, hd, bind, Except.bind, Functor.map, Except.map]
    | ok action =>
      simp [hl, hd, bind, Except.bind, pure, Except.pure, Functor.map, Except.map,
        isCustomAction_of_defaultAction hd]

/-! ## The links of the included endpoints -/

variable (lib : Lib) (url : String) (request : Option Request)

/-- The keys and link `get_links` computes for one endpoint, `none` when its view is
left out. -/
def linkEntry (e : Endpoint) : Except PyError (Option (List DocKey × Link)) := do
  let view ← createView e.callback e.method request
  if !shouldIncludeView view then pure none
  else
    let link ← getLink lib url e.path e.method view
    let keys ← getKeys e.path e.method view
    pure (some (keys, link))

/-- The included endpoints' keys and links in order, or the first error computing one. -/
def linkEntries : List Endpoint → Except PyError (List (List DocKey × Link))
  | [] => .ok []
  | e :: endpoints => do
    let entry ← linkEntry lib url request e
    let rest ← linkEntries endpoints
    pure (entry.toList ++ rest)

/-- One step of the loop of `get_links`, through `linkEntry`. -/
theorem getLinksLoop_cons (e : Endpoint) (endpoints : List Endpoint) (links : Links) :
    getLinksLoop lib url request (e :: endpoints) links =
      (linkEntry lib url request e).bind fun
        | none => getLinksLoop lib url request endpoints links
        | some (keys, link) =>
          match insertInto links keys link with
          | (links, none) => getLinksLoop lib url request endpoints links
          | (_, some err) => .error err := by
  simp only [getLinksLoop, linkEntry, bind, Except.bind]
  rcases createView e.callback e.method request with err | view
  · rfl
  · by_cases hi : shouldIncludeView view
    · simp only [hi, Bool.not_true, Bool.false_eq_true, if_false]
      rcases getLink lib url e.path e.method view with err | link
      · rfl
      · rcases getKeys e.path e.method view with err | keys <;> rfl
    · simp [hi, pure, Except.pure]

theorem linkEntries_cons_eq_ok {e : Endpoint} {endpoints : List Endpoint}
    {entries : List (List DocKey × Link)} :
    linkEntries lib url request (e :: endpoints) = .ok entries ↔
      ∃ entry rest, linkEntry lib url request e = .ok entry ∧
        linkEntries lib url request endpoints = .ok rest ∧ entries = entry.toList ++ rest := by
  simp only [linkEntries, bind_eq_ok, pure, Except.pure, Except.ok.injEq]
  exact ⟨fun ⟨entry, h, rest, h', he⟩ => ⟨entry, rest, h, h', he.symm⟩,
    fun ⟨entry, rest, h, h', he⟩ => ⟨entry, h, rest, h', he.symm⟩⟩

/-- An endpoint has an entry when its view is included, with the link and keys computed
for it. -/
theorem linkEntry_eq_some {e : Endpoint} {keys : List DocKey} {link : Link} :
    linkEntry lib url request e = .ok (some (keys, link)) ↔
      ∃ view, createView e.callback e.method request = .ok view ∧ shouldIncludeView view ∧
        getKeys e.path e.method view = .ok keys ∧ getLink lib url e.path e.method view = .ok link := by
  simp only [linkEntry, bind_eq_ok]
  refine exists_congr fun view => and_congr_right fun _ => ?_
  cases shouldIncludeView view
  · simp [pure, Except.pure]
  · simp only [Bool.not_true, Bool.false_eq_true, if_false, bind_eq_ok, true_and]
    constructor
    · rintro ⟨link, hl, keys, hk, ⟨⟩⟩
      exact ⟨hk, hl⟩
    · rintro ⟨hk, hl⟩
      exact ⟨link, hl, keys, hk, rfl⟩

/-- The view's request is the request with the endpoint's method, or none. -/
theorem createView_request {callback : Callback} {method : String} {view : View}
    (h : createView callback method request = .ok view) :
    view.request = request.map fun r => { r with method := method } := by
  unfold createView at h
  split at h
  · cases h
  · cases h
    rfl

/-- An endpoint is left out exactly when its view is built and is marked
`exclude_from_schema`, by its class or its `initkwargs`, or a request is given and the
view's permission check fails for it with the endpoint's method. Without a request no
permission check runs. -/
theorem linkEntry_eq_none_iff (e : Endpoint) :
    linkEntry lib url request e = .ok none ↔
      ∃ view, createView e.callback e.method request = .ok view ∧
        (view.excludeFromSchema = true ∨
          ∃ r, request = some r ∧ view.checkPermissions { r with method := e.method } = false) := by
  simp only [linkEntry, bind_eq_ok]
  refine exists_congr fun view => and_congr_right fun hview => ?_
  have hexcluded : shouldIncludeView view = false ↔ view.excludeFromSchema = true ∨
      ∃ r, request = some r ∧ view.checkPermissions { r with method := e.method } = false := by
    unfold shouldIncludeView
    rw [createView_request request hview]
    cases request <;> cases view.excludeFromSchema <;> simp
  rw [← hexcluded]
  cases shouldIncludeView view <;> simp [pure, Except.pure, bind_eq_ok]

/-- On an endpoint `get_api_endpoints` lists for a viewset whose action map names its
methods in lower case, as routers do, the map has an action for the endpoint's method, and
`create_view` sets the view's action to `metadata` for `OPTIONS` and to that action
otherwise. The view's action is never `None`, so `get_description` does not raise on it. -/
theorem createView_action_of_mem_getApiEndpoints (patterns : List UrlPattern) (pre : String)
    (e : Endpoint) (he : e ∈ getApiEndpoints lib patterns pre)
    (actions : List (String × String)) (hactions : e.callback.actions = some actions)
    (hlower : ∀ k ∈ actions.map Prod.fst, lower (upper k) = k) :
    ∃ a, getItem actions (lower e.method) = some a ∧
      ∃ view, createView e.callback e.method request = .ok view ∧
        view.action = .named (if e.method = "OPTIONS" then "metadata" else a) := by
  obtain ⟨hapi, -, -, hm⟩ := listable_of_mem_getApiEndpoints lib he
  obtain ⟨cls, hcls, -⟩ := isApiView_iff.mp hapi
  simp only [getAllowedMethods, hactions, List.mem_map] at hm
  obtain ⟨⟨k, a⟩, hka, hmethod⟩ := hm
  obtain ⟨a', ha'⟩ := Option.isSome_iff_exists.mp (getItem_isSome_of_mem hka)
  have hlk : lower e.method = k := hmethod ▸ hlower k (List.mem_map_of_mem _ hka)
  refine ⟨a', hlk ▸ ha', ?_⟩
  simp only [createView, hcls, hactions, hlk, ha', Except.ok.injEq, exists_eq_left']
  split_ifs <;> rfl

theorem createView_action_of_mem_getApiEndpoints_router :
    (⟨"/users/", "GET", routerCallback⟩ ∈ getApiEndpoints exampleLib routerConf "" ∧
        routerCallback.actions = some [("get", "list"), ("post", "create")] ∧
        ∀ k ∈ [("get", "list"), ("post", "create")].map Prod.fst, lower (upper k) = k) ∧
      ∃ a, getItem [("get", "list"), ("post", "create")] (lower "GET") = some a ∧
        ∃ view, createView routerCallback "GET" none = .ok view ∧
          view.action = .named (if "GET" = "OPTIONS" then "metadata" else a) :=
  have he : (⟨"/users/", "GET", routerCallback⟩ : Endpoint) ∈
      getApiEndpoints exampleLib routerConf "" := by
    rw [show getApiEndpoints exampleLib routerConf "" =
      [⟨"/users/", "GET", routerCallback⟩, ⟨"/users/", "POST", routerCallback⟩] from rfl]
    exact List.mem_cons_self _ _
  have hlower : ∀ k ∈ [("get", "list"), ("post", "create")].map Prod.fst, lower (upper k) = k := by
    decide
  ⟨⟨he, rfl, hlower⟩, createView_action_of_mem_getApiEndpoints exampleLib none routerConf "" _ he
    _ rfl hlower⟩

theorem keys_ne_nil_of_linkEntry {e : Endpoint} {keys : List DocKey} {link : Link}
    (h : linkEntry lib url request e = .ok (some (keys, link))) : keys ≠ [] := by
  obtain ⟨view, -, -, hk, -⟩ := (linkEntry_eq_some lib url request).mp h
  exact getKeys_ne_nil hk

/-- A step of the loop of `get_links` that returns: the endpoint is left out, or its
entry is inserted without raising. -/
theorem getLinksLoop_cons_eq_ok {e : Endpoint} {endpoints : List Endpoint} {links links' : Links} :
    getLinksLoop lib url request (e :: endpoints) links = .ok links' ↔
      (linkEntry lib url request e = .ok none ∧
          getLinksLoop lib url request endpoints links = .ok links') ∨
        ∃ keys link, linkEntry lib url request e = .ok (some (keys, link)) ∧
          (insertInto links keys link).2 = none ∧
          getLinksLoop lib url request endpoints (insertInto links keys link).1 = .ok links' := by
  rw [getLinksLoop_cons]
  cases linkEntry lib url request e with
  | error err => simp [Except.bind]
  | ok entry =>
    match entry with
    | none => simp [Except.bind]
    | some (keys, link) =>
      rcases hins : insertInto links keys link with ⟨links'', _ | err⟩ <;>
        simp [Except.bind, hins, and_assoc]

/-- No key list is a prefix of another's, or equal to it. -/
def PrefixFree (keys : List (List DocKey)) : Prop :=
  keys.Pairwise fun a b => ¬a <+: b ∧ ¬b <+: a

instance (keys : List (List DocKey)) : Decidable (PrefixFree keys) :=
  inferInstanceAs (Decidable (keys.Pairwise _))

/-- No key list is a proper prefix of another's; equal key lists are allowed. -/
def ProperPrefixFree (keys : List (List DocKey)) : Prop :=
  keys.Pairwise fun a b => (a <+: b → a = b) ∧ (b <+: a → a = b)

instance (keys : List (List DocKey)) : Decidable (ProperPrefixFree keys) :=
  inferInstanceAs (Decidable (keys.Pairwise _))

theorem PrefixFree.properPrefixFree {keys : List (List DocKey)} (h : PrefixFree keys) :
    ProperPrefixFree keys :=
  h.imp fun hab => ⟨fun h' => absurd h' hab.1, fun h' => absurd h' hab.2⟩

/-- The leaf at each key list of `links` is the link `dict(entries)` maps it to, that of
the last pair with those keys, and there is no other leaf. -/
def LeavesAreLast (links : Links) (entries : List (List DocKey × Link)) : Prop :=
  ∀ p l, (Node.dict links).lookup p = some (.leaf l) ↔ getItem entries.reverse p = some l

theorem leavesAreLast_nil : LeavesAreLast [] [] := by
  intro p l
  cases p <;> simp

/-- Keys that are no proper prefix or extension of a key present add a leaf, over the one
at the same keys if there is one, and raise nothing. -/
theorem insertInto_leavesAreLast {links : Links} {entries : List (List DocKey × Link)}
    {keys : List DocKey} (link : Link) (hleaves : LeavesAreLast links entries) (hne : keys ≠ [])
    (hfree : ∀ k ∈ entries.map Prod.fst, (k <+: keys → k = keys) ∧ (keys <+: k → k = keys)) :
    (insertInto links keys link).2 = none ∧
      LeavesAreLast (insertInto links keys link).1 (entries ++ [(keys, link)]) := by
  have hkey : ∀ {p l}, getItem entries.reverse p = some l → p ∈ entries.map Prod.fst :=
    fun h => List.mem_map_of_mem Prod.fst (List.mem_reverse.mp (mem_of_getItem h))
  have habove : ¬LeafAbove links keys := fun ⟨p, l, hp, hne', hl⟩ =>
    hne' ((hfree p (hkey ((hleaves p l).mp hl))).1 hp)
  refine ⟨insertInto_ok hne habove, fun p l => ?_⟩
  rw [lookup_insertInto_eq_leaf hne habove, hleaves]
  simp only [List.reverse_append, List.reverse_singleton, List.singleton_append, getItem]
  by_cases hp : p = keys
  · subst hp
    simp [eq_comm]
  · have hext : getItem entries.reverse p = some l → ¬keys <+: p :=
      fun h hpre => hp ((hfree p (hkey h)).2 hpre)
    simp only [hp, Ne.symm hp, false_and, false_or, if_false]
    exact ⟨fun h => h.2, fun h => ⟨hext h, h⟩⟩

/-- The loop of `get_links`, from leaves `done`, over endpoints whose entries are
computed and whose keys are, with `done`'s, no proper prefix of each other. -/
theorem getLinksLoop_leavesAreLast :
    ∀ (endpoints : List Endpoint) (links : Links) (done entries : List (List DocKey × Link)),
      LeavesAreLast links done → linkEntries lib url request endpoints = .ok entries →
      ProperPrefixFree ((done ++ entries).map Prod.fst) →
      ∃ links', getLinksLoop lib url request endpoints links = .ok links' ∧
        LeavesAreLast links' (done ++ entries)
  | [], links, done, entries, hleaves, hentries, _ => by
    cases hentries
    exact ⟨links, rfl, by simpa using hleaves⟩
  | e :: endpoints, links, done, entries, hleaves, hentries, hfree => by
    obtain ⟨entry, rest, he, hrest, rfl⟩ := (linkEntries_cons_eq_ok lib url request).mp hentries
    cases entry with
    | none =>
      obtain ⟨links', h, hl⟩ := getLinksLoop_leavesAreLast endpoints links done rest hleaves hrest
        (by simpa using hfree)
      exact ⟨links', (getLinksLoop_cons_eq_ok lib url request).mpr (.inl ⟨he, h⟩), by simpa using hl⟩
    | some entry =>
      obtain ⟨keys, link⟩ := entry
      have hcross : ∀ k ∈ done.map Prod.fst, (k <+: keys → k = keys) ∧ (keys <+: k → k = keys) := by
        simp only [ProperPrefixFree, List.map_append, List.pairwise_append] at hfree
        exact fun k hk => hfree.2.2 k hk keys (by simp)
      obtain ⟨hok, hleaves'⟩ := insertInto_leavesAreLast link hleaves
        (keys_ne_nil_of_linkEntry lib url request he) hcross
      obtain ⟨links', h, hl⟩ := getLinksLoop_leavesAreLast endpoints _ (done ++ [(keys, link)]) rest
        hleaves' hrest (by simpa using hfree)
      exact ⟨links', (getLinksLoop_cons_eq_ok lib url request).mpr (.inr ⟨keys, link, he, hok, h⟩),
        by simpa using hl⟩

/-- When the included endpoints' links and keys are computed without error and no
endpoint's keys are a prefix of another's, `get_links` completes, and its leaves are
exactly the included endpoints' links at their keys. -/
theorem getLinks_of_prefixFree (endpoints : List Endpoint) (entries : List (List DocKey × Link))
    (hentries : linkEntries lib url request endpoints = .ok entries)
    (hfree : PrefixFree (entries.map Prod.fst)) :
    ∃ links, getLinks lib url request endpoints = .ok links ∧
      ∀ p l, (Node.dict links).lookup p = some (.leaf l) ↔ (p, l) ∈ entries := by
  obtain ⟨links, hlinks, hleaves⟩ := getLinksLoop_leavesAreLast lib url request endpoints [] []
    entries leavesAreLast_nil hentries (by simpa using hfree.properPrefixFree)
  have hnodup : (entries.reverse.map Prod.fst).Nodup := by
    rw [List.map_reverse, List.nodup_reverse]
    exact hfree.imp fun {a b} h (heq : a = b) => h.1 (heq ▸ List.prefix_refl a)
  refine ⟨links, hlinks, fun p l => ?_⟩
  rw [List.nil_append] at hleaves
  rw [hleaves p l, getItem_eq_some_iff_mem hnodup, List.mem_reverse]

/-- The list and create endpoints of `usersConf` have the keys `users, list` and
`users, create`, and `get_links` lays both out. -/
theorem getLinks_of_prefixFree_users :
    let entries : List (List DocKey × Link) :=
      [([some "users", some "list"],
          { url := "/users/", action := "get", encoding := none, fields := [], description := "" }),
        ([some "users", some "create"],
          { url := "/users/", action := "post", encoding := none, fields := [], description := "" })]
    linkEntries exampleLib "" none (getApiEndpoints exampleLib usersConf "") = .ok entries ∧
      PrefixFree (entries.map Prod.fst) ∧
      ∃ links, getLinks exampleLib "" none (getApiEndpoints exampleLib usersConf "") = .ok links ∧
        ∀ p l, (Node.dict links).lookup p = some (.leaf l) ↔ (p, l) ∈ entries :=
  have hentries : linkEntries exampleLib "" none (getApiEndpoints exampleLib usersConf "") =
      .ok [([some "users", some "list"],
          { url := "/users/", action := "get", encoding := none, fields := [], description := "" }),
        ([some "users", some "create"],
          { url := "/users/", action := "post", encoding := none, fields := [], description := "" })] :=
    rfl
  ⟨hentries, by decide, getLinks_of_prefixFree exampleLib "" none _ _ hentries (by decide)⟩

/-- The endpoints of `prefixConf` have distinct paths, and `get_links` raises `TypeError`:
`/users/` is laid out at `users, list`, a leaf when `/users/list/` goes to
`users, list, list`. -/
theorem getLinks_raises_of_prefix_keys :
    ((getApiEndpoints exampleLib prefixConf "").map fun e => (e.path, e.method)) =
        [("/users/", "GET"), ("/users/list/", "GET")] ∧
      getLinks exampleLib "" none (getApiEndpoints exampleLib prefixConf "") = .error .typeError :=
  ⟨by decide, rfl⟩

/-! ## What `get_links` returns and raises -/

/-- The mapping `get_links` lays out for `usersConf`. -/
def usersLinks : Links :=
  [(some "users", .dict
    [(some "list", .leaf
        { url := "/users/", action := "get", encoding := none, fields := [], description := "" }),
      (some "create", .leaf
        { url := "/users/", action := "post", encoding := none, fields := [], description := "" })])]

/-- Every leaf the loop of `get_links` leaves was there before, or is the entry of one of
its endpoints. -/
theorem getLinksLoop_leaf_sound :
    ∀ (endpoints : List Endpoint) (links links' : Links),
      getLinksLoop lib url request endpoints links = .ok links' → ∀ p l,
      (Node.dict links').lookup p = some (.leaf l) →
      (Node.dict links).lookup p = some (.leaf l) ∨
        ∃ e ∈ endpoints, linkEntry lib url request e = .ok (some (p, l))
  | [], links, links', h, p, l, hl => by
    cases h
    exact .inl hl
  | e :: endpoints, links, links', h, p, l, hl => by
    have later : (∃ e ∈ endpoints, linkEntry lib url request e = .ok (some (p, l))) →
        ∃ e' ∈ e :: endpoints, linkEntry lib url request e' = .ok (some (p, l)) :=
      fun ⟨e', he', h'⟩ => ⟨e', List.mem_cons_of_mem _ he', h'⟩
    rcases (getLinksLoop_cons_eq_ok lib url request).mp h with ⟨-, h⟩ | ⟨keys, link, he, hok, h⟩
    · exact (getLinksLoop_leaf_sound endpoints links links' h p l hl).imp_right later
    · rcases getLinksLoop_leaf_sound endpoints _ links' h p l hl with hnew | hlater
      · rw [lookup_insertInto_eq_leaf (keys_ne_nil_of_linkEntry lib url request he)
          (not_leafAbove_of_insertInto hok)] at hnew
        rcases hnew with ⟨rfl, rfl⟩ | ⟨-, hold⟩
        · exact .inr ⟨e, List.mem_cons_self _ _, he⟩
        · exact .inl hold
      · exact .inr (later hlater)

/-- Whatever the keys, every leaf `get_links` returns is the link `get_link` computes for
one of the endpoints whose view passes `should_include_view`, at the keys `get_keys`
computes for it. -/
theorem getLinks_leaf_sound (endpoints : List Endpoint) (links : Links)
    (hlinks : getLinks lib url request endpoints = .ok links) (p : List DocKey) (l : Link)
    (hp : (Node.dict links).lookup p = some (.leaf l)) :
    ∃ e ∈ endpoints, ∃ view, createView e.callback e.method request = .ok view ∧
      shouldIncludeView view ∧ getKeys e.path e.method view = .ok p ∧
      getLink lib url e.path e.method view = .ok l := by
  rcases getLinksLoop_leaf_sound lib url request endpoints [] links hlinks p l hp with h | ⟨e, he, h⟩
  · cases p <;> simp at h
  · exact ⟨e, he, (linkEntry_eq_some lib url request).mp h⟩

/-- The leaf at `users, create` is the link of the `POST` endpoint of `usersConf`. -/
theorem getLinks_leaf_sound_users :
    let create : Link :=
      { url := "/users/", action := "post", encoding := none, fields := [], description := "" }
    (getLinks exampleLib "" none (getApiEndpoints exampleLib usersConf "") = .ok usersLinks ∧
        (Node.dict usersLinks).lookup [some "users", some "create"] = some (.leaf create)) ∧
      ∃ e ∈ getApiEndpoints exampleLib usersConf "", ∃ view,
        createView e.callback e.method none = .ok view ∧ shouldIncludeView view ∧
        getKeys e.path e.method view = .ok [some "users", some "create"] ∧
        getLink exampleLib "" e.path e.method view = .ok create :=
  have h : getLinks exampleLib "" none (getApiEndpoints exampleLib usersConf "") = .ok usersLinks :=
    rfl
  ⟨⟨h, rfl⟩, getLinks_leaf_sound exampleLib "" none _ _ h _ _ rfl⟩

/-- The document follows the URL paths: every leaf of the mapping `get_links` returns
sits under the named components of an endpoint's path, all of them or, for a custom
action on a viewset that maps at most one method, all but the last, followed by one
action key. -/
theorem getLinks_leaf_keys (endpoints : List Endpoint) (links : Links)
    (hlinks : getLinks lib url request endpoints = .ok links) (p : List DocKey) (l : Link)
    (hp : (Node.dict links).lookup p = some (.leaf l)) :
    ∃ e ∈ endpoints, ∃ action, p = namedPathComponents e.path ++ [action] ∨
      p = (namedPathComponents e.path).dropLast ++ [action] := by
  rcases getLinksLoop_leaf_sound lib url request endpoints [] links hlinks p l hp with h | ⟨e, he, h⟩
  · cases p <;> simp at h
  · obtain ⟨view, -, -, hk, -⟩ := (linkEntry_eq_some lib url request).mp h
    exact ⟨e, he, getKeys_eq_ok hk⟩

/-- The leaf at `users, create` sits under the path `/users/` of the `POST` endpoint of
`usersConf`. -/
theorem getLinks_leaf_keys_users :
    (getLinks exampleLib "" none (getApiEndpoints exampleLib usersConf "") = .ok usersLinks ∧
        (Node.dict usersLinks).lookup [some "users", some "create"] =
          some (.leaf { url := "/users/", action := "post", encoding := none, fields := [],
                        description := "" })) ∧
      ∃ e ∈ getApiEndpoints exampleLib usersConf "", ∃ action,
        [some "users", some "create"] = namedPathComponents e.path ++ [action] ∨
          [some "users", some "create"] = (namedPathComponents e.path).dropLast ++ [action] :=
  have h : getLinks exampleLib "" none (getApiEndpoints exampleLib usersConf "") = .ok usersLinks :=
    rfl
  ⟨⟨h, rfl⟩, getLinks_leaf_keys exampleLib "" none _ _ h _ _ rfl⟩

/-- The loop leaves an empty mapping exactly when it starts from one and every endpoint
is left out. -/
theorem getLinksLoop_eq_nil_iff : ∀ (endpoints : List Endpoint) (links : Links),
    getLinksLoop lib url request endpoints links = .ok [] ↔
      links = [] ∧ ∀ e ∈ endpoints, linkEntry lib url request e = .ok none
  | [], links => by simp [getLinksLoop]
  | e :: endpoints, links => by
    rw [getLinksLoop_cons_eq_ok, List.forall_mem_cons, getLinksLoop_eq_nil_iff endpoints links]
    constructor
    · rintro (⟨he, hl, hall⟩ | ⟨keys, link, -, hok, h⟩)
      · exact ⟨hl, he, hall⟩
      · exact absurd ((getLinksLoop_eq_nil_iff endpoints _).mp h).1 (insertInto_fst_ne_nil hok)
    · rintro ⟨hl, he, hall⟩
      exact .inl ⟨he, hl, hall⟩

/-- `get_links` returns an empty mapping exactly when every endpoint is left out. -/
theorem getLinks_eq_nil_iff (endpoints : List Endpoint) :
    getLinks lib url request endpoints = .ok [] ↔
      ∀ e ∈ endpoints, linkEntry lib url request e = .ok none := by
  simp [getLinks, getLinksLoop_eq_nil_iff]

theorem defaultAction_raisesOnly (method : String) :
    RaisesOnly [.keyError] (defaultAction method) := by
  unfold defaultAction
  split <;> simp

theorem getKeys_raisesOnly (path method : String) (view : View) :
    RaisesOnly [.keyError, .typeError] (getKeys path method view) := by
  have hdefault : RaisesOnly [.keyError, .typeError] (defaultAction method) :=
    (defaultAction_raisesOnly method).mono (by simp)
  unfold getKeys
  refine RaisesOnly.bind ?_ fun action _ => ?_ <;> repeat' split
  all_goals first
    | trivial
    | exact hdefault.map _
    | exact RaisesOnly.bind hdefault fun _ _ => trivial
    | simp

/-- With a class to build the view from, an endpoint's entry raises only `KeyError` and
`TypeError`. -/
theorem linkEntry_raisesOnly_of_cls {e : Endpoint} {cls : ViewClass}
    (hcls : e.callback.cls = some cls) :
    RaisesOnly [.keyError, .typeError] (linkEntry lib url request e) := by
  unfold linkEntry
  refine RaisesOnly.bind (by simp [createView, hcls]) fun view _ => ?_
  split
  · trivial
  · exact RaisesOnly.bind ((getLink_raisesOnly lib url _ _ view).mono (by simp)) fun _ _ =>
      RaisesOnly.bind (getKeys_raisesOnly _ _ view) fun _ _ => trivial

theorem linkEntry_raisesOnly (e : Endpoint) :
    RaisesOnly [.attributeError, .keyError, .typeError] (linkEntry lib url request e) := by
  cases hcls : e.callback.cls with
  | none => simp [linkEntry, createView, hcls, bind, Except.bind]
  | some cls => exact (linkEntry_raisesOnly_of_cls lib url request hcls).mono (by simp)

/-- The loop raises what the entries raise, and the `TypeError` of keys below a link. -/
theorem getLinksLoop_raisesOnly_of {errs : List PyError} (htype : PyError.typeError ∈ errs) :
    ∀ (endpoints : List Endpoint) (links : Links),
      (∀ e ∈ endpoints, RaisesOnly errs (linkEntry lib url request e)) →
      RaisesOnly errs (getLinksLoop lib url request endpoints links)
  | [], _, _ => trivial
  | e :: endpoints, links, hall => by
    have hrest := fun links => getLinksLoop_raisesOnly_of htype endpoints links
      fun e' he' => hall e' (List.mem_cons_of_mem _ he')
    rw [getLinksLoop_cons]
    refine RaisesOnly.bind (hall e (List.mem_cons_self _ _)) fun entry he => ?_
    match entry, he with
    | none, _ => exact hrest links
    | some (keys, link), he =>
      dsimp only
      rcases hins : insertInto links keys link with ⟨links'', err⟩
      cases err with
      | none => exact hrest links''
      | some err =>
        simp [insertInto_snd_eq_typeError (keys_ne_nil_of_linkEntry lib url request he)
          (congrArg Prod.snd hins), htype]

theorem getLinksLoop_raisesOnly (endpoints : List Endpoint) (links : Links) :
    RaisesOnly [.attributeError, .keyError, .typeError]
      (getLinksLoop lib url request endpoints links) :=
  getLinksLoop_raisesOnly_of lib url request (by simp) endpoints links fun e _ =>
    linkEntry_raisesOnly lib url request e

end RestSchemas
