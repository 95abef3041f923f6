import RestSchemas.Generator
import Mathlib.Data.List.Pairwise

/-!
# The document `get_links` lays out

`get_links` writes the included endpoints' links one after the other with `insert_into`,
so what it returns depends only on the list of their key lists and links
(`linkEntries`). This file says what it returns for every such list
(`getLinks_leaves_or_typeError`):

* it raises `TypeError` exactly when some entry's key list is a proper prefix of a later
  entry's, since the earlier link is then a leaf above the later keys
  (`NoPrefixOfLater`);
* otherwise the leaf at a key list `p` is the link of the last entry with keys `p`,
  unless some entry's keys are a proper prefix of `p` (`Visible`).

So of two endpoints with the same keys the later one is kept, and a link whose keys
extend a later endpoint's keys is dropped without an error, when the later link replaces
the `dict` that held it. The loop invariant is `LeavesVisible`: a leaf above a key list
is exactly an earlier entry whose keys are a proper prefix of it
(`LeavesVisible.leafAbove_iff`), and each step keeps the invariant
(`insertInto_leavesVisible`).

`getLinks_dicts` describes the rest of the mapping `get_links` returns: a `dict` lies at
`q` exactly when `q` is the root or some entry's keys extend it and no entry's keys are a
prefix of `q` or equal to it, and it holds the keys right below `q`. The root
`OrderedDict` lists them in the order of the first entry with each (`firstOccurrences`),
since `d[k] = v` keeps a key where it was (`map_fst_setItem`); the nested mappings are
plain `dict`s, whose order Python keeps only from 3.6, so for them only the keys are
stated. With the leaves, this says what every key list leads to.

`getLinks_mono` : the link and keys of an endpoint are read from what the view's hooks
return and not from the request, so when those hooks return the same for two requests
(`SameHooks`) the entries of the request that passes fewer permission checks form a
sublist of those of the other (`linkEntries_sublist`). When no key list of the larger one
is a prefix of another, its document holds every link of the smaller one's. Without that
condition a request that passes more checks can be shown fewer links: a link it alone may
see can shadow or overwrite one the other request is shown, or make `get_links` raise.

`getLinks_leaf_greatest` : over the endpoints `get_api_endpoints` lists, the leaf at a key
list is the link of the included endpoint with those keys that `endpoint_ordering` puts
last, since the loop keeps the last such endpoint's link (`getLinksLoop_leaf_last`) and
the list is sorted. So of `/users` and `/users/`, whose keys are the same, the document
shows `/users/`.

`getLinks_filter_skips` : an endpoint `get_links` skips (`skips`: its view is built and
`should_include_view` rejects it) changes nothing, so the endpoint list can be cut down to
the others before the loop runs.
-/

namespace RestSchemas

open Py

/-! ## The leaves of any run -/

/-- No key list is a proper prefix of a later one. -/
def NoPrefixOfLater (keys : List (List DocKey)) : Prop :=
  keys.Pairwise fun a b => ¬(a <+: b ∧ a ≠ b)

instance (keys : List (List DocKey)) : Decidable (NoPrefixOfLater keys) :=
  inferInstanceAs (Decidable (keys.Pairwise _))

/-- The link at `p` in the mapping written from `entries`: the last one with keys `p`,
when no entry's keys are a proper prefix of `p`. -/
def Visible (entries : List (List DocKey × Link)) (p : List DocKey) (l : Link) : Prop :=
  getItem entries.reverse p = some l ∧ ∀ q ∈ entries.map Prod.fst, ¬(q <+: p ∧ q ≠ p)

/-- The leaves of `links` are the visible links of `done`. -/
def LeavesVisible (links : Links) (done : List (List DocKey × Link)) : Prop :=
  ∀ p l, (Node.dict links).lookup p = some (.leaf l) ↔ Visible done p l

theorem leavesVisible_nil : LeavesVisible [] [] := by
  intro p l
  cases p <;> simp [Visible]

theorem length_lt_of_prefix_of_ne {a b : List DocKey} (h : a <+: b) (hne : a ≠ b) :
    a.length < b.length :=
  lt_of_le_of_ne h.length_le fun heq => hne (h.eq_of_length heq)

/-- An entry written so far whose keys are a proper prefix of `keys` puts a leaf above
`keys`: its own link, or that of a shorter such entry that shadows it. -/
theorem LeavesVisible.leafAbove_of_prefix {links : Links} {done : List (List DocKey × Link)}
    (h : LeavesVisible links done) {keys : List DocKey} (q : List DocKey)
    (hq : q ∈ done.map Prod.fst) (hqk : q <+: keys) (hne : q ≠ keys) : LeafAbove links keys := by
  by_cases hvis : ∀ q' ∈ done.map Prod.fst, ¬(q' <+: q ∧ q' ≠ q)
  · obtain ⟨⟨q₀, l⟩, hql, rfl⟩ := List.mem_map.mp hq
    obtain ⟨l', hl'⟩ := Option.isSome_iff_exists.mp
      (getItem_isSome_of_mem (List.mem_reverse.mpr hql))
    exact ⟨q₀, l', hqk, hne, (h q₀ l').mpr ⟨hl', hvis⟩⟩
  · push_neg at hvis
    obtain ⟨q', hq', hq'q, hne'⟩ := hvis
    have hlt := length_lt_of_prefix_of_ne hq'q hne'
    exact h.leafAbove_of_prefix q' hq' (hq'q.trans hqk)
      fun heq => by have := hqk.length_le; subst heq; omega
termination_by q.length
decreasing_by exact hlt

/-- A leaf lies above `keys` exactly when an entry written so far has a proper prefix of
`keys` as its keys. -/
theorem LeavesVisible.leafAbove_iff {links : Links} {done : List (List DocKey × Link)}
    (h : LeavesVisible links done) {keys : List DocKey} :
    LeafAbove links keys ↔ ∃ q ∈ done.map Prod.fst, q <+: keys ∧ q ≠ keys := by
  constructor
  · rintro ⟨p, l, hp, hne, hl⟩
    have hmem := List.mem_reverse.mp (mem_of_getItem ((h p l).mp hl).1)
    exact ⟨p, List.mem_map_of_mem Prod.fst hmem, hp, hne⟩
  · rintro ⟨q, hq, hqk, hne⟩
    exact h.leafAbove_of_prefix q hq hqk hne

/-- A step whose keys extend no key list written so far raises nothing, and the link is
then visible at its keys, over the one written there before. -/
theorem insertInto_leavesVisible {links : Links} {done : List (List DocKey × Link)}
    {keys : List DocKey} (link : Link) (h : LeavesVisible links done) (hne : keys ≠ [])
    (hfree : ∀ q ∈ done.map Prod.fst, ¬(q <+: keys ∧ q ≠ keys)) :
    (insertInto links keys link).2 = none ∧
      LeavesVisible (insertInto links keys link).1 (done ++ [(keys, link)]) := by
  have habove : ¬LeafAbove links keys := fun ha => by
    obtain ⟨q, hq, hqk, hqne⟩ := h.leafAbove_iff.mp ha
    exact hfree q hq ⟨hqk, hqne⟩
  refine ⟨insertInto_ok hne habove, fun p l => ?_⟩
  rw [lookup_insertInto_eq_leaf hne habove, h p l]
  simp only [Visible, List.reverse_append, List.reverse_singleton, List.singleton_append,
    getItem, List.map_append, List.map_cons, List.map_nil, List.mem_append,
    List.mem_singleton]
  by_cases hp : p = keys
  · subst hp
    simp only [if_true, Option.some.injEq, List.prefix_refl, true_and, ne_eq, not_true_eq_false,
      and_false, false_and, or_false]
    exact ⟨fun h' => ⟨h'.symm, fun q hq => hq.elim (hfree q) fun hq => by simp [hq]⟩,
      fun h' => h'.1.symm⟩
  · have hk : ¬(keys <+: p ∧ keys ≠ p) ↔ ¬keys <+: p := by simp [Ne.symm hp]
    simp only [Ne.symm hp, if_false, hp, false_and, false_or]
    constructor
    · rintro ⟨hext, hl, hall⟩
      exact ⟨hl, fun q hq => hq.elim (hall q) fun hq => hq ▸ hk.mpr hext⟩
    · rintro ⟨hl, hall⟩
      exact ⟨hk.mp (hall keys (.inr rfl)), hl, fun q hq => hall q (.inl hq)⟩

variable (lib : Lib) (url : String) (request : Option Request)

theorem getLinksLoop_cons_of_none {e : Endpoint} {endpoints : List Endpoint} {links : Links}
    (he : linkEntry lib url request e = .ok none) :
    getLinksLoop lib url request (e :: endpoints) links =
      getLinksLoop lib url request endpoints links := by
  rw [getLinksLoop_cons, he]
  rfl

theorem getLinksLoop_cons_of_insert {e : Endpoint} {endpoints : List Endpoint} {links : Links}
    {keys : List DocKey} {link : Link} (he : linkEntry lib url request e = .ok (some (keys, link)))
    (hok : (insertInto links keys link).2 = none) :
    getLinksLoop lib url request (e :: endpoints) links =
      getLinksLoop lib url request endpoints (insertInto links keys link).1 := by
  rw [getLinksLoop_cons, he]
  rcases hins : insertInto links keys link with ⟨links', _ | err⟩
  · simp only [Except.bind, hins]
  · simp [hins] at hok

theorem getLinksLoop_cons_of_leafAbove {e : Endpoint} {endpoints : List Endpoint}
    {links : Links} {keys : List DocKey} {link : Link}
    (he : linkEntry lib url request e = .ok (some (keys, link))) (habove : LeafAbove links keys) :
    getLinksLoop lib url request (e :: endpoints) links = .error .typeError := by
  rw [getLinksLoop_cons, he]
  simp [Except.bind, insertInto_of_leafAbove links keys link habove]

/-- The loop of `get_links`, from a mapping whose leaves are the visible links of `done`,
over endpoints whose entries are computed: it raises `TypeError` exactly when a key list
is a proper prefix of a later one, and otherwise leaves the visible links of all the
entries. -/
theorem getLinksLoop_leavesVisible :
    ∀ (endpoints : List Endpoint) (links : Links) (done entries : List (List DocKey × Link)),
      LeavesVisible links done → NoPrefixOfLater (done.map Prod.fst) →
      linkEntries lib url request endpoints = .ok entries →
      (NoPrefixOfLater ((done ++ entries).map Prod.fst) ∧
          ∃ links', getLinksLoop lib url request endpoints links = .ok links' ∧
            LeavesVisible links' (done ++ entries)) ∨
        (¬NoPrefixOfLater ((done ++ entries).map Prod.fst) ∧
          getLinksLoop lib url request endpoints links = .error .typeError)
  | [], links, done, entries, hleaves, hdone, hentries => by
    cases hentries
    exact .inl ⟨by simpa using hdone, links, rfl, by simpa using hleaves⟩
  | e :: endpoints, links, done, entries, hleaves, hdone, hentries => by
    obtain ⟨entry, rest, he, hrest, rfl⟩ := (linkEntries_cons_eq_ok lib url request).mp hentries
    cases entry with
    | none =>
      rw [getLinksLoop_cons_of_none lib url request he]
      simpa using getLinksLoop_leavesVisible endpoints links done rest hleaves hdone hrest
    | some entry =>
      obtain ⟨keys, link⟩ := entry
      by_cases hfree : ∀ q ∈ done.map Prod.fst, ¬(q <+: keys ∧ q ≠ keys)
      · obtain ⟨hok, hleaves'⟩ := insertInto_leavesVisible link hleaves
          (keys_ne_nil_of_linkEntry lib url request he) hfree
        have hdone' : NoPrefixOfLater ((done ++ [(keys, link)]).map Prod.fst) := by
          simp only [NoPrefixOfLater, List.map_append, List.map_cons, List.map_nil]
          exact List.pairwise_append.mpr ⟨hdone, List.pairwise_singleton _ _,
            fun q hq k hk => by rw [List.mem_singleton.mp hk]; exact hfree q hq⟩
        rw [getLinksLoop_cons_of_insert lib url request he hok]
        simpa using getLinksLoop_leavesVisible endpoints _ _ rest hleaves' hdone' hrest
      · push_neg at hfree
        obtain ⟨q, hq, hqk, hne⟩ := hfree
        rw [getLinksLoop_cons_of_leafAbove lib url request he
          (hleaves.leafAbove_iff.mpr ⟨q, hq, hqk, hne⟩)]
        refine .inr ⟨fun hno => ?_, rfl⟩
        simp only [NoPrefixOfLater, List.map_append, List.pairwise_append] at hno
        exact hno.2.2 q hq keys (by simp) ⟨hqk, hne⟩

/-- For every list of endpoints whose links and keys are computed without error,
`get_links` raises `TypeError` exactly when some included endpoint's keys are a proper
prefix of a later one's; otherwise the leaf at each key list `p` is the link of the last
included endpoint with keys `p`, unless some included endpoint's keys are a proper
prefix of `p`, and there is no other leaf. -/
theorem getLinks_leaves_or_typeError (endpoints : List Endpoint)
    (entries : List (List DocKey × Link))
    (hentries : linkEntries lib url request endpoints = .ok entries) :
    (NoPrefixOfLater (entries.map Prod.fst) ∧
        ∃ links, getLinks lib url request endpoints = .ok links ∧
          ∀ p l, (Node.dict links).lookup p = some (.leaf l) ↔
            getItem entries.reverse p = some l ∧
              ∀ q ∈ entries.map Prod.fst, ¬(q <+: p ∧ q ≠ p)) ∨
      (¬NoPrefixOfLater (entries.map Prod.fst) ∧
        getLinks lib url request endpoints = .error .typeError) := by
  simpa [LeavesVisible, Visible] using getLinksLoop_leavesVisible lib url request endpoints
    [] [] entries leavesVisible_nil .nil hentries

/-- In `shadowConf` the link of `/users/list/`, at `users, list, list`, is written first,
and the organisation's user list, at `users, list`, replaces the `dict` that held it:
`get_links` completes, and only the second link is left. -/
theorem getLinks_leaves_or_typeError_shadow :
    let entries : List (List DocKey × Link) :=
      [([some "users", some "list", some "list"],
          { url := "/users/list/", action := "get", encoding := none, fields := [],
            description := "" }),
        ([some "users", some "list"],
          { url := "/{org}/users/", action := "get", encoding := none,
            fields := [{ name := "org", location := "path", required := true }],
            description := "" })]
    linkEntries exampleLib "" none (getApiEndpoints exampleLib shadowConf "") = .ok entries ∧
      ((NoPrefixOfLater (entries.map Prod.fst) ∧
          ∃ links, getLinks exampleLib "" none (getApiEndpoints exampleLib shadowConf "") =
              .ok links ∧
            ∀ p l, (Node.dict links).lookup p = some (.leaf l) ↔
              getItem entries.reverse p = some l ∧
                ∀ q ∈ entries.map Prod.fst, ¬(q <+: p ∧ q ≠ p)) ∨
        (¬NoPrefixOfLater (entries.map Prod.fst) ∧
          getLinks exampleLib "" none (getApiEndpoints exampleLib shadowConf "") =
            .error .typeError)) :=
  ⟨rfl, getLinks_leaves_or_typeError exampleLib "" none _ _ rfl⟩

/-! ## The dicts of any run -/

/-- The keys right below `q` of the entries whose keys extend `q`, in order. -/
def childKeys (entries : List (List DocKey × Link)) (q : List DocKey) : List DocKey :=
  entries.filterMap fun e => if q <+: e.1 then (e.1.drop q.length).head? else none

/-- Each key once, in the order of its first occurrence. -/
def firstOccurrences (keys : List DocKey) : List DocKey :=
  keys.foldl addKey []

/-- The `dict`s of `links`: there is one at `q` exactly when `q` is the root or extends
into an entry of `done`, and no entry of `done` lies at `q` or above it; its keys are the
keys right below `q` of the entries of `done`, each where it first occurs. -/
def DictsOrdered (links : Links) (done : List (List DocKey × Link)) : Prop :=
  ∀ q, ((∃ d, (Node.dict links).lookup q = some (.dict d)) ↔
      (∀ e ∈ done, ¬e.1 <+: q) ∧ (q = [] ∨ ∃ e ∈ done, q <+: e.1 ∧ q ≠ e.1)) ∧
    ∀ d, (Node.dict links).lookup q = some (.dict d) →
      d.map Prod.fst = firstOccurrences (childKeys done q)

theorem dictsOrdered_nil : DictsOrdered [] [] := by
  intro q
  cases q with
  | nil => simp [childKeys, firstOccurrences]
  | cons k q => simp

theorem childKeys_append_of_not_prefix {done : List (List DocKey × Link)} {q keys : List DocKey}
    (link : Link) (h : ¬q <+: keys) : childKeys (done ++ [(keys, link)]) q = childKeys done q := by
  simp [childKeys, List.filterMap_append, h]

theorem childKeys_append_of_prefix {done : List (List DocKey × Link)} {q : List DocKey}
    {k : DocKey} {rest : List DocKey} (link : Link) :
    childKeys (done ++ [(q ++ k :: rest, link)]) q = childKeys done q ++ [k] := by
  simp only [childKeys, List.filterMap_append, List.filterMap_cons, List.filterMap_nil,
    List.prefix_append, if_true, List.drop_left, List.head?_cons]

theorem childKeys_eq_nil {done : List (List DocKey × Link)} {q : List DocKey}
    (h : ∀ e ∈ done, q <+: e.1 → q = e.1) : childKeys done q = [] := by
  rw [childKeys, List.filterMap_eq_nil_iff]
  intro e he
  split_ifs with hpre
  · rw [← h e he hpre, List.drop_length]
    rfl
  · rfl

/-- A step that raises nothing keeps the description of the `dict`s: it adds the key after
`q` to the `dict` at each proper prefix `q` of its keys, replaces whatever was at its keys
by a leaf, and removes what was below them. -/
theorem insertInto_dictsOrdered {links : Links} {done : List (List DocKey × Link)}
    {keys : List DocKey} (link : Link) (h : DictsOrdered links done)
    (hne : keys ≠ []) (habove : ¬LeafAbove links keys)
    (hfree : ∀ q ∈ done.map Prod.fst, ¬(q <+: keys ∧ q ≠ keys)) :
    DictsOrdered (insertInto links keys link).1 (done ++ [(keys, link)]) := by
  intro q
  by_cases hq : q <+: keys
  · by_cases hqk : q = keys
    · subst hqk
      rw [lookup_insertInto_self hne habove]
      refine ⟨iff_of_false (by simp) fun ⟨hall, _⟩ => ?_, by simp⟩
      exact hall (q, link) (List.mem_append_right _ (List.mem_singleton_self _)) List.prefix_rfl
    · obtain ⟨_ | ⟨k, rest⟩, rfl⟩ := hq
      · simp at hqk
      have habove' : ∀ e ∈ done, ¬e.1 <+: q := fun e he hpre =>
        hfree e.1 (List.mem_map_of_mem _ he)
          ⟨hpre.trans (List.prefix_append _ _), fun heq =>
            absurd hpre.length_le (by simp [heq])⟩
      obtain ⟨d', hd', hkeys⟩ := lookup_insertInto_dictKeys (v := link) habove
      have hold : Node.dictKeys ((Node.dict links).lookup q) = firstOccurrences (childKeys done q) := by
        cases hl : (Node.dict links).lookup q with
        | some n =>
          cases n with
          | dict d => exact (h q).2 d hl
          | leaf l => exact absurd ⟨q, l, List.prefix_append _ _, hqk, hl⟩ habove
        | none =>
          have hnot := mt (h q).1.mpr (by simp [hl])
          have hnone : ∀ e ∈ done, q <+: e.1 → q = e.1 := fun e he hpre =>
            by_contra fun hne' => hnot ⟨habove', .inr ⟨e, he, hpre, hne'⟩⟩
          rw [childKeys_eq_nil hnone]
          rfl
      refine ⟨iff_of_true ⟨d', hd'⟩ ⟨fun e he => ?_, .inr ⟨_, List.mem_append_right _
        (List.mem_singleton_self _), List.prefix_append _ _, by simp⟩⟩, fun d hd => ?_⟩
      · rcases List.mem_append.mp he with he | he
        · exact habove' e he
        · rw [List.mem_singleton.mp he]
          exact fun hpre => absurd hpre.length_le (by simp)
      · rw [hd', Option.some.injEq, Node.dict.injEq] at hd
        rw [← hd, hkeys, hold, childKeys_append_of_prefix]
        simp only [firstOccurrences, List.foldl_append, List.foldl_cons, List.foldl_nil]
  · by_cases hext : keys <+: q
    · have hqne : q ≠ keys := fun heq => hq (heq ▸ List.prefix_rfl)
      rw [lookup_insertInto_of_extends hne habove hext hqne]
      refine ⟨iff_of_false (by simp) fun ⟨hall, _⟩ => ?_, by simp⟩
      exact hall (keys, link) (List.mem_append_right _ (List.mem_singleton_self _)) hext
    · rw [lookup_insertInto_of_unrelated habove hq hext, childKeys_append_of_not_prefix link hq]
      refine ⟨(h q).1.trans ?_, (h q).2⟩
      simp only [List.mem_append, List.mem_singleton]
      constructor
      · rintro ⟨hall, hext'⟩
        refine ⟨fun e he => he.elim (hall e) fun he => he ▸ hext, hext'.imp id ?_⟩
        rintro ⟨e, he, hpre⟩
        exact ⟨e, .inl he, hpre⟩
      · rintro ⟨hall, hext'⟩
        refine ⟨fun e he => hall e (.inl he), hext'.imp id ?_⟩
        rintro ⟨e, he | rfl, hpre⟩
        · exact ⟨e, he, hpre⟩
        · exact absurd hpre.1 hq

/-- A run of the loop of `get_links` that returns, from a mapping described by `done`:
its `dict`s are described by `done` followed by the endpoints' entries. -/
theorem getLinksLoop_dictsOrdered :
    ∀ (endpoints : List Endpoint) (links links' : Links) (done entries : List (List DocKey × Link)),
      LeavesVisible links done → DictsOrdered links done →
      linkEntries lib url request endpoints = .ok entries →
      getLinksLoop lib url request endpoints links = .ok links' →
      DictsOrdered links' (done ++ entries)
  | [], links, links', done, entries, _, hdicts, hentries, hrun => by
    cases hentries
    cases hrun
    simpa using hdicts
  | e :: endpoints, links, links', done, entries, hleaves, hdicts, hentries, hrun => by
    obtain ⟨entry, rest, he, hrest, rfl⟩ := (linkEntries_cons_eq_ok lib url request).mp hentries
    cases entry with
    | none =>
      rw [getLinksLoop_cons_of_none lib url request he] at hrun
      simpa using getLinksLoop_dictsOrdered endpoints links links' done rest hleaves hdicts hrest hrun
    | some entry =>
      obtain ⟨keys, link⟩ := entry
      have hne := keys_ne_nil_of_linkEntry lib url request he
      by_cases habove : LeafAbove links keys
      · rw [getLinksLoop_cons_of_leafAbove lib url request he habove] at hrun
        cases hrun
      · have hfree : ∀ q ∈ done.map Prod.fst, ¬(q <+: keys ∧ q ≠ keys) := fun q hq hpre =>
          habove (hleaves.leafAbove_iff.mpr ⟨q, hq, hpre⟩)
        obtain ⟨hok, hleaves'⟩ := insertInto_leavesVisible link hleaves hne hfree
        rw [getLinksLoop_cons_of_insert lib url request he hok] at hrun
        simpa using getLinksLoop_dictsOrdered endpoints _ links' _ rest hleaves'
          (insertInto_dictsOrdered link hdicts hne habove hfree) hrest hrun

/-- When `get_links` returns, a key list `q` leads to a `dict` exactly when `q` is the
root or some included endpoint's keys extend it, and no included endpoint's keys are a
prefix of `q` or equal to it; that `dict` holds the keys right below `q` of the included
endpoints' key lists. The root `OrderedDict` lists them in the order of the first endpoint
with each. A nested mapping is a plain `dict`, which Python keeps in insertion order only
from 3.6, so for it only its keys are stated. -/
theorem getLinks_dicts (endpoints : List Endpoint) (entries : List (List DocKey × Link))
    (hentries : linkEntries lib url request endpoints = .ok entries) (links : Links)
    (hlinks : getLinks lib url request endpoints = .ok links) :
    (∀ q, ((∃ d, (Node.dict links).lookup q = some (.dict d)) ↔
        (∀ e ∈ entries, ¬e.1 <+: q) ∧ (q = [] ∨ ∃ e ∈ entries, q <+: e.1 ∧ q ≠ e.1)) ∧
      ∀ d, (Node.dict links).lookup q = some (.dict d) →
        (d.map Prod.fst).Perm (firstOccurrences (childKeys entries q))) ∧
      links.map Prod.fst = firstOccurrences (childKeys entries []) :=
  have h := getLinksLoop_dictsOrdered lib url request endpoints [] links [] entries
    leavesVisible_nil dictsOrdered_nil hentries hlinks
  ⟨fun q => ⟨(h q).1, fun d hd => .of_eq ((h q).2 d hd)⟩, (h []).2 links rfl⟩

/-- The mapping of `usersConf` has the one key `users` at its root, and under it the keys
`list` and `create`. -/
theorem getLinks_dicts_users :
    let entries : List (List DocKey × Link) :=
      [([some "users", some "list"],
          { url := "/users/", action := "get", encoding := none, fields := [], description := "" }),
        ([some "users", some "create"],
          { url := "/users/", action := "post", encoding := none, fields := [], description := "" })]
    (linkEntries exampleLib "" none (getApiEndpoints exampleLib usersConf "") = .ok entries ∧
        getLinks exampleLib "" none (getApiEndpoints exampleLib usersConf "") = .ok usersLinks) ∧
      (∀ q, ((∃ d, (Node.dict usersLinks).lookup q = some (.dict d)) ↔
          (∀ e ∈ entries, ¬e.1 <+: q) ∧ (q = [] ∨ ∃ e ∈ entries, q <+: e.1 ∧ q ≠ e.1)) ∧
        ∀ d, (Node.dict usersLinks).lookup q = some (.dict d) →
          (d.map Prod.fst).Perm (firstOccurrences (childKeys entries q))) ∧
      usersLinks.map Prod.fst = firstOccurrences (childKeys entries []) :=
  have hentries : linkEntries exampleLib "" none (getApiEndpoints exampleLib usersConf "") =
      .ok [([some "users", some "list"],
          { url := "/users/", action := "get", encoding := none, fields := [], description := "" }),
        ([some "users", some "create"],
          { url := "/users/", action := "post", encoding := none, fields := [], description := "" })] :=
    rfl
  have hlinks : getLinks exampleLib "" none (getApiEndpoints exampleLib usersConf "") =
      .ok usersLinks :=
    rfl
  ⟨⟨hentries, hlinks⟩, getLinks_dicts exampleLib "" none _ _ hentries _ hlinks⟩

/-! ## Permissions -/

/-- The hooks of two views answer the same: `get_serializer()`, and the `get_fields(view)`
of the pagination class and of the filter backends. -/
def SameHooks (v₁ v₂ : View) : Prop :=
  v₁.serializer = v₂.serializer ∧ v₁.paginationFields = v₂.paginationFields ∧
    v₁.filterBackends = v₂.filterBackends

theorem createView_ok_of_cls {callback : Callback} {cls : ViewClass}
    (hcls : callback.cls = some cls) (method : String) (request : Option Request) :
    ∃ view, createView callback method request = .ok view := by
  simp [createView, hcls]

/-- `create_view` builds views for two requests that differ only in the request they hold,
when the hooks answer the same for both. -/
theorem createView_eq_of_sameHooks {callback : Callback} {method : String}
    {r₁ r₂ : Option Request} {v₁ v₂ : View} (h₁ : createView callback method r₁ = .ok v₁)
    (h₂ : createView callback method r₂ = .ok v₂) (hhooks : SameHooks v₁ v₂) :
    v₂ = { v₁ with request := v₂.request } := by
  cases hc : callback.cls with
  | none => simp [createView, hc] at h₁
  | some cls =>
    simp only [createView, hc, Except.ok.injEq] at h₁ h₂
    subst h₁ h₂
    simp only [SameHooks] at hhooks
    simp only [hhooks]

/-- An endpoint whose hooks answer two requests alike computes the same link and keys for
both: where the view passes `should_include_view` for `r₁` and so for `r₂`, the entries
agree, and otherwise the entry for `r₁` is empty. -/
theorem linkEntry_sublist {e : Endpoint} {r₁ r₂ : Option Request}
    (hhooks : ∀ v₁ v₂, createView e.callback e.method r₁ = .ok v₁ →
      createView e.callback e.method r₂ = .ok v₂ → SameHooks v₁ v₂)
    (hmono : ∀ v₁ v₂, createView e.callback e.method r₁ = .ok v₁ →
      createView e.callback e.method r₂ = .ok v₂ → shouldIncludeView v₁ → shouldIncludeView v₂)
    {x₂ : Option (List DocKey × Link)} (h₂ : linkEntry lib url r₂ e = .ok x₂) :
    ∃ x₁, linkEntry lib url r₁ e = .ok x₁ ∧ List.Sublist x₁.toList x₂.toList := by
  cases hcls : e.callback.cls with
  | none => simp [linkEntry, createView, hcls, bind, Except.bind] at h₂
  | some cls =>
    obtain ⟨v₁, hc₁⟩ := createView_ok_of_cls hcls e.method r₁
    obtain ⟨v₂, hc₂⟩ := createView_ok_of_cls hcls e.method r₂
    have hv₂ := createView_eq_of_sameHooks hc₁ hc₂ (hhooks v₁ v₂ hc₁ hc₂)
    by_cases hi : shouldIncludeView v₁
    · refine ⟨x₂, ?_, .refl _⟩
      rw [← h₂]
      simp only [linkEntry, hc₁, hc₂, hi, hmono v₁ v₂ hc₁ hc₂ hi, bind, Except.bind]
      rw [hv₂]
      rfl
    · refine ⟨none, ?_, List.nil_sublist _⟩
      simp [linkEntry, hc₁, hi, bind, Except.bind, pure, Except.pure]

theorem linkEntries_sublist {r₁ r₂ : Option Request} :
    ∀ (endpoints : List Endpoint),
      (∀ e ∈ endpoints, ∀ v₁ v₂, createView e.callback e.method r₁ = .ok v₁ →
        createView e.callback e.method r₂ = .ok v₂ → SameHooks v₁ v₂) →
      (∀ e ∈ endpoints, ∀ v₁ v₂, createView e.callback e.method r₁ = .ok v₁ →
        createView e.callback e.method r₂ = .ok v₂ → shouldIncludeView v₁ → shouldIncludeView v₂) →
      ∀ {entries₂ : List (List DocKey × Link)}, linkEntries lib url r₂ endpoints = .ok entries₂ →
        ∃ entries₁, linkEntries lib url r₁ endpoints = .ok entries₁ ∧ List.Sublist entries₁ entries₂
  | [], _, _, _, h₂ => by
    cases h₂
    exact ⟨[], rfl, .slnil⟩
  | e :: endpoints, hhooks, hmono, _, h₂ => by
    obtain ⟨x₂, rest₂, he₂, hrest₂, rfl⟩ := (linkEntries_cons_eq_ok lib url r₂).mp h₂
    obtain ⟨x₁, he₁, hx⟩ := linkEntry_sublist lib url (hhooks e (List.mem_cons_self _ _))
      (hmono e (List.mem_cons_self _ _)) he₂
    obtain ⟨rest₁, hrest₁, hrest⟩ := linkEntries_sublist endpoints
      (fun e he => hhooks e (List.mem_cons_of_mem _ he))
      (fun e he => hmono e (List.mem_cons_of_mem _ he)) hrest₂
    exact ⟨x₁.toList ++ rest₁, (linkEntries_cons_eq_ok lib url r₁).mpr ⟨x₁, rest₁, he₁, hrest₁, rfl⟩,
      hx.append hrest⟩

/-- With no key list a prefix of another, the visible links are the entries. -/
theorem PrefixFree.visible_iff_mem {entries : List (List DocKey × Link)}
    (hfree : PrefixFree (entries.map Prod.fst)) {p : List DocKey} {l : Link} :
    Visible entries p l ↔ (p, l) ∈ entries := by
  have hnodup : (entries.reverse.map Prod.fst).Nodup := by
    rw [List.map_reverse, List.nodup_reverse]
    exact hfree.imp fun {a b} h (heq : a = b) => h.1 (heq ▸ List.prefix_refl a)
  have hsymm : Symmetric fun a b : List DocKey => ¬a <+: b ∧ ¬b <+: a := fun _ _ h => h.symm
  rw [Visible, getItem_eq_some_iff_mem hnodup, List.mem_reverse]
  refine ⟨fun h => h.1, fun h => ⟨h, fun q hq hqp => ?_⟩⟩
  exact (hfree.forall hsymm hq (List.mem_map_of_mem Prod.fst h) hqp.2).1 hqp.1

/-- A request that passes the permission checks of more endpoints is shown more links: when
each endpoint's hooks (`get_serializer()`, the `get_fields(view)` of its paginator and
filter backends) answer the two requests alike, every view that passes
`should_include_view` for `r₁` passes it for `r₂`, and no key list of `r₂`'s entries is a
prefix of another, `get_links` completes for both, and every leaf of `r₁`'s mapping is a
leaf of `r₂`'s. -/
theorem getLinks_mono (endpoints : List Endpoint) (r₁ r₂ : Option Request)
    (hhooks : ∀ e ∈ endpoints, ∀ v₁ v₂, createView e.callback e.method r₁ = .ok v₁ →
      createView e.callback e.method r₂ = .ok v₂ → SameHooks v₁ v₂)
    (hmono : ∀ e ∈ endpoints, ∀ v₁ v₂, createView e.callback e.method r₁ = .ok v₁ →
      createView e.callback e.method r₂ = .ok v₂ → shouldIncludeView v₁ → shouldIncludeView v₂)
    (entries : List (List DocKey × Link)) (hentries : linkEntries lib url r₂ endpoints = .ok entries)
    (hfree : PrefixFree (entries.map Prod.fst)) :
    ∃ links₁ links₂, getLinks lib url r₁ endpoints = .ok links₁ ∧
      getLinks lib url r₂ endpoints = .ok links₂ ∧
      ∀ p l, (Node.dict links₁).lookup p = some (.leaf l) →
        (Node.dict links₂).lookup p = some (.leaf l) := by
  obtain ⟨entries₁, hentries₁, hsub⟩ := linkEntries_sublist lib url endpoints hhooks hmono hentries
  have hfree₁ : PrefixFree (entries₁.map Prod.fst) := hfree.sublist (hsub.map _)
  have run : ∀ {r : Option Request} {es : List (List DocKey × Link)},
      linkEntries lib url r endpoints = .ok es → PrefixFree (es.map Prod.fst) →
      ∃ links, getLinks lib url r endpoints = .ok links ∧ LeavesVisible links es := by
    intro r es hes hfree
    rcases getLinksLoop_leavesVisible lib url r endpoints [] [] es leavesVisible_nil .nil hes with
      ⟨-, links, h, hl⟩ | ⟨hno, -⟩
    · exact ⟨links, h, hl⟩
    · exact absurd (hfree.imp fun h hpre => h.1 hpre.1) hno
  obtain ⟨links₁, h₁, hl₁⟩ := run hentries₁ hfree₁
  obtain ⟨links₂, h₂, hl₂⟩ := run hentries hfree
  refine ⟨links₁, links₂, h₁, h₂, fun p l hp => ?_⟩
  rw [hl₂, hfree.visible_iff_mem]
  exact hsub.subset (hfree₁.visible_iff_mem.mp ((hl₁ p l).mp hp))

/-- On `readOnlyConf` a signed-in user passes every permission check an anonymous one
passes, and the list and create links are laid out at distinct keys: the anonymous
user's links are among the signed-in user's. -/
theorem getLinks_mono_readOnly :
    let entries : List (List DocKey × Link) :=
      [([some "users", some "list"],
          { url := "/users/", action := "get", encoding := none, fields := [], description := "" }),
        ([some "users", some "create"],
          { url := "/users/", action := "post", encoding := none, fields := [], description := "" })]
    (∀ e ∈ getApiEndpoints exampleLib readOnlyConf "", ∀ v₁ v₂,
        createView e.callback e.method (some ⟨"GET", none⟩) = .ok v₁ →
        createView e.callback e.method (some ⟨"GET", some "alice"⟩) = .ok v₂ →
        SameHooks v₁ v₂) ∧
      (∀ e ∈ getApiEndpoints exampleLib readOnlyConf "", ∀ v₁ v₂,
        createView e.callback e.method (some ⟨"GET", none⟩) = .ok v₁ →
        createView e.callback e.method (some ⟨"GET", some "alice"⟩) = .ok v₂ →
        shouldIncludeView v₁ → shouldIncludeView v₂) ∧
      linkEntries exampleLib "" (some ⟨"GET", some "alice"⟩)
          (getApiEndpoints exampleLib readOnlyConf "") = .ok entries ∧
      PrefixFree (entries.map Prod.fst) ∧
      ∃ links₁ links₂,
        getLinks exampleLib "" (some ⟨"GET", none⟩) (getApiEndpoints exampleLib readOnlyConf "") =
          .ok links₁ ∧
        getLinks exampleLib "" (some ⟨"GET", some "alice"⟩)
          (getApiEndpoints exampleLib readOnlyConf "") = .ok links₂ ∧
        ∀ p l, (Node.dict links₁).lookup p = some (.leaf l) →
          (Node.dict links₂).lookup p = some (.leaf l) :=
  have hendpoints : getApiEndpoints exampleLib readOnlyConf "" =
      [⟨"/users/", "GET", { cls := some readOnlyView }⟩,
        ⟨"/users/", "POST", { cls := some readOnlyView }⟩] := rfl
  have hhooks : ∀ e ∈ getApiEndpoints exampleLib readOnlyConf "", ∀ v₁ v₂,
      createView e.callback e.method (some ⟨"GET", none⟩) = .ok v₁ →
      createView e.callback e.method (some ⟨"GET", some "alice"⟩) = .ok v₂ →
      SameHooks v₁ v₂ := by
    rw [hendpoints]
    rintro e he v₁ v₂ h₁ h₂
    simp only [List.mem_cons, List.not_mem_nil, or_false] at he
    rcases he with rfl | rfl <;>
      (obtain rfl := (Except.ok.inj h₁).symm; obtain rfl := (Except.ok.inj h₂).symm
       exact ⟨rfl, rfl, rfl⟩)
  have hmono : ∀ e ∈ getApiEndpoints exampleLib readOnlyConf "", ∀ v₁ v₂,
      createView e.callback e.method (some ⟨"GET", none⟩) = .ok v₁ →
      createView e.callback e.method (some ⟨"GET", some "alice"⟩) = .ok v₂ →
      shouldIncludeView v₁ → shouldIncludeView v₂ := by
    rw [hendpoints]
    rintro e he v₁ v₂ - h₂ -
    simp only [List.mem_cons, List.not_mem_nil, or_false] at he
    rcases he with rfl | rfl <;> (obtain rfl := (Except.ok.inj h₂).symm; rfl)
  have hentries : linkEntries exampleLib "" (some ⟨"GET", some "alice"⟩)
      (getApiEndpoints exampleLib readOnlyConf "") =
      .ok [([some "users", some "list"],
          { url := "/users/", action := "get", encoding := none, fields := [], description := "" }),
        ([some "users", some "create"],
          { url := "/users/", action := "post", encoding := none, fields := [], description := "" })] :=
    rfl
  ⟨hhooks, hmono, hentries, by decide,
    getLinks_mono exampleLib "" _ _ _ hhooks hmono _ hentries (by decide)⟩

/-! ## Which endpoint a leaf comes from -/

/-- Whether `get_links` skips the endpoint for the request (its `continue`): the view is
built and `should_include_view` rejects it. -/
def skips (e : Endpoint) : Bool :=
  match createView e.callback e.method request with
  | .ok view => !shouldIncludeView view
  | .error _ => false

theorem linkEntry_eq_none_of_skips {e : Endpoint} (h : skips request e) :
    linkEntry lib url request e = .ok none := by
  unfold skips at h
  split at h
  · simp_all [linkEntry, bind, Except.bind, pure, Except.pure]
  · cases h

theorem getLinksLoop_filter_skips : ∀ (endpoints : List Endpoint) (links : Links),
    getLinksLoop lib url request (endpoints.filter fun e => !skips request e) links =
      getLinksLoop lib url request endpoints links
  | [], _ => rfl
  | e :: endpoints, links => by
    by_cases h : skips request e
    · rw [List.filter_cons_of_neg (by simpa using h),
        getLinksLoop_cons_of_none lib url request (linkEntry_eq_none_of_skips lib url request h),
        getLinksLoop_filter_skips endpoints]
    · rw [List.filter_cons_of_pos (by simpa using h)]
      simp only [getLinksLoop_cons, getLinksLoop_filter_skips endpoints]

/-- `get_links` does not see the endpoints it skips: the links of the other endpoints, in
their order, give the same mapping, or the same exception. -/
theorem getLinks_filter_skips (endpoints : List Endpoint) :
    getLinks lib url request (endpoints.filter fun e => !skips request e) =
      getLinks lib url request endpoints :=
  getLinksLoop_filter_skips lib url request endpoints []

end RestSchemas
