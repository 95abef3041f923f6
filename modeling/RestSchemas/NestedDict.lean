import RestSchemas.Py

/-!
# Nested insertion

`get_links` lays the links out in a nested `dict` keyed by the key lists `get_keys`
computes, and writes each one with `insert_into`. A value of that mapping is a `Node`:
a leaf or a `dict` of further nodes; `Node.lookup` follows a key path.

`insertInto` returns the `dict` as the call leaves it together with the exception it
raised, since Python mutates the mapping in place and an exception does not undo what
was written before it. The results:

* `insertInto_of_leafAbove` : when a proper prefix of the keys leads to a leaf, the
  call raises `TypeError` and leaves the mapping as it was;
* `insertInto_ok` : otherwise it raises nothing, and afterwards the keys lead to the
  new leaf (`lookup_insertInto_self`), every path neither a prefix nor an extension of
  the keys leads where it did (`lookup_insertInto_of_unrelated`), no path extends the
  keys (`lookup_insertInto_of_extends`), and the proper prefixes lead to `dict`s
  (`lookup_insertInto_of_prefix`).

The atomicity rests on the shape of the descent: the call only creates a `dict` for a
missing key, and below a fresh `dict` every key is missing, so no leaf is met there
(`not_leafAbove_nil`).
-/

namespace RestSchemas

open Py

/-- A value of the nested mapping `insert_into` writes: a leaf (a `Link` in
`get_links`), or a `dict` of further values in insertion order. -/
inductive Node (κ α : Type) where
  | leaf (value : α)
  | dict (entries : List (κ × Node κ α))

variable {κ α : Type} [DecidableEq κ]

namespace Node

/-- The value a key path leads to; a path that runs through a leaf or a missing key
leads nowhere. -/
def lookup : Node κ α → List κ → Option (Node κ α)
  | n, [] => some n
  | .leaf _, _ :: _ => none
  | .dict d, k :: ks => (getItem d k).bind (lookup · ks)

@[simp] theorem lookup_nil (n : Node κ α) : n.lookup [] = some n := by
  cases n <;> rfl

@[simp] theorem lookup_leaf_cons (v : α) (k : κ) (ks : List κ) :
    (leaf v : Node κ α).lookup (k :: ks) = none :=
  rfl

@[simp] theorem lookup_dict_cons (d : List (κ × Node κ α)) (k : κ) (ks : List κ) :
    (dict d).lookup (k :: ks) = (getItem d k).bind (lookup · ks) :=
  rfl

/-- The keys of a `dict` a path leads to, in order; none when it leads to a leaf or
nowhere. -/
def dictKeys : Option (Node κ α) → List κ
  | some (dict d) => d.map Prod.fst
  | _ => []

/-- Below an empty `dict` only the empty path leads anywhere. -/
theorem lookup_dict_nil {p : List κ} (hp : p ≠ []) : (dict [] : Node κ α).lookup p = none := by
  cases p with
  | nil => exact absurd rfl hp
  | cons k p => simp

end Node

/-- `insert_into(target, keys, value)`: the `dict` after the call, and the exception it
raised. The loop walks `keys[:-1]`, storing a fresh `dict` under a missing key before
it descends; `key in target` and `target[keys[-1]] = value` raise `TypeError` when
`target` is a leaf, and `keys[-1]` raises `IndexError` when `keys` is empty. -/
def insertInto : List (κ × Node κ α) → List κ → α → List (κ × Node κ α) × Option PyError
  | target, [], _ => (target, some .indexError)
  | target, [k], value => (setItem target k (.leaf value), none)
  | target, k :: k' :: ks, value =>
    match (getItem target k).getD (.dict []) with
    | .dict sub =>
      let (sub, err) := insertInto sub (k' :: ks) value
      (setItem target k (.dict sub), err)
    | .leaf _ => (target, some .typeError)

/-- Some proper prefix of `ks` leads from `target` to a leaf. -/
def LeafAbove (target : List (κ × Node κ α)) (ks : List κ) : Prop :=
  ∃ p v, p <+: ks ∧ p ≠ ks ∧ (Node.dict target).lookup p = some (.leaf v)

section LeafAbove

variable {target : List (κ × Node κ α)} {k k' : κ} {ks : List κ}

theorem not_leafAbove_single : ¬LeafAbove target [k] := by
  rintro ⟨p, v, hp, hne, hl⟩
  rcases List.prefix_cons_iff.mp hp with rfl | ⟨t, rfl, ht⟩
  · simp at hl
  · exact hne (by rw [List.prefix_nil.mp ht])

theorem not_leafAbove_nil : ¬LeafAbove ([] : List (κ × Node κ α)) ks := by
  rintro ⟨p, v, -, -, hl⟩
  cases p <;> simp at hl

/-- A leaf above `k :: k' :: ks` is the child at `k`, or a leaf above `k' :: ks` in it. -/
theorem leafAbove_cons_cons :
    LeafAbove target (k :: k' :: ks) ↔
      (∃ v, getItem target k = some (.leaf v)) ∨
        ∃ sub, getItem target k = some (.dict sub) ∧ LeafAbove sub (k' :: ks) := by
  constructor
  · rintro ⟨p, v, hp, hne, hl⟩
    rcases List.prefix_cons_iff.mp hp with rfl | ⟨t, rfl, ht⟩
    · simp at hl
    · obtain ⟨n, hn, hl⟩ := Option.bind_eq_some.mp hl
      cases n with
      | leaf w => exact .inl ⟨w, hn⟩
      | dict sub =>
        refine .inr ⟨sub, hn, t, v, ht, fun h => hne (by rw [h]), hl⟩
  · rintro (⟨v, hv⟩ | ⟨sub, hs, p, v, hp, hne, hl⟩)
    · exact ⟨[k], v, by simp, by simp, by simp [hv]⟩
    · exact ⟨k :: p, v, List.cons_prefix_cons.mpr ⟨rfl, hp⟩, by simpa using hne, by simp [hs, hl]⟩

end LeafAbove

@[simp] theorem insertInto_single (target : List (κ × Node κ α)) (k : κ) (v : α) :
    insertInto target [k] v = (setItem target k (.leaf v), none) :=
  rfl

/-- One step of the descent, into the child at `k` or into a fresh `dict`. -/
theorem insertInto_cons_cons (target sub : List (κ × Node κ α)) (k k' : κ) (ks : List κ)
    (v : α) (h : (getItem target k).getD (.dict []) = .dict sub) :
    insertInto target (k :: k' :: ks) v =
      (setItem target k (.dict (insertInto sub (k' :: ks) v).1),
        (insertInto sub (k' :: ks) v).2) := by
  simp only [insertInto, h]

/-- When the keys do not pass through a leaf, the child the descent enters is the
`dict` at `k`, or a fresh one. -/
theorem child_of_not_leafAbove {target : List (κ × Node κ α)} {k k' : κ} {ks : List κ}
    (h : ¬LeafAbove target (k :: k' :: ks)) :
    ∃ sub, (getItem target k).getD (.dict []) = .dict sub ∧ ¬LeafAbove sub (k' :: ks) ∧
      ∀ p, p ≠ [] → (Node.dict target).lookup (k :: p) = (Node.dict sub).lookup p := by
  rw [leafAbove_cons_cons, not_or] at h
  cases hk : getItem target k with
  | none => exact ⟨[], rfl, not_leafAbove_nil, fun p hp => by simp [hk, Node.lookup_dict_nil hp]⟩
  | some n =>
    cases n with
    | leaf v => exact absurd ⟨v, hk⟩ h.1
    | dict sub => exact ⟨sub, rfl, fun hs => h.2 ⟨sub, hk, hs⟩, fun p _ => by simp [hk]⟩

theorem insertInto_of_leafAbove (target : List (κ × Node κ α)) (ks : List κ) (v : α)
    (h : LeafAbove target ks) : insertInto target ks v = (target, some .typeError) := by
  induction ks generalizing target with
  | nil => obtain ⟨p, w, hp, hne, -⟩ := h; exact absurd (List.prefix_nil.mp hp) hne
  | cons k rest ih =>
    cases rest with
    | nil => exact absurd h not_leafAbove_single
    | cons k' ks =>
      rcases leafAbove_cons_cons.mp h with ⟨w, hw⟩ | ⟨sub, hs, hsub⟩
      · simp [insertInto, hw]
      · rw [insertInto_cons_cons target sub k k' ks v (by simp [hs]), ih sub hsub,
          setItem_of_getItem hs]

section Descent

variable {target : List (κ × Node κ α)} {ks : List κ} {v : α}

/-- Without a leaf above the keys the call raises nothing. -/
theorem insertInto_ok (hks : ks ≠ []) (h : ¬LeafAbove target ks) :
    (insertInto target ks v).2 = none := by
  induction ks generalizing target with
  | nil => exact absurd rfl hks
  | cons k rest ih =>
    cases rest with
    | nil => rfl
    | cons k' ks =>
      obtain ⟨sub, hsub, hnot, -⟩ := child_of_not_leafAbove h
      rw [insertInto_cons_cons target sub k k' ks v hsub]
      exact ih (List.cons_ne_nil _ _) hnot

theorem not_leafAbove_of_insertInto (h : (insertInto target ks v).2 = none) :
    ¬LeafAbove target ks := fun habove => by
  simp [insertInto_of_leafAbove target ks v habove] at h

/-- With keys, the only exception is the `TypeError` of a leaf above them. -/
theorem insertInto_snd_eq_typeError (hks : ks ≠ []) {err : PyError}
    (h : (insertInto target ks v).2 = some err) : err = .typeError := by
  by_cases habove : LeafAbove target ks
  · simpa [insertInto_of_leafAbove target ks v habove] using h.symm
  · simp [insertInto_ok hks habove] at h

/-- A call that raises nothing leaves a non-empty `dict`. -/
theorem insertInto_fst_ne_nil (h : (insertInto target ks v).2 = none) :
    (insertInto target ks v).1 ≠ [] := by
  match ks, h with
  | [_], _ => simp
  | k :: k' :: ks, h =>
    unfold insertInto at h ⊢
    split
    · simp
    · simp_all

theorem lookup_insertInto_self (hks : ks ≠ []) (h : ¬LeafAbove target ks) :
    (Node.dict (insertInto target ks v).1).lookup ks = some (.leaf v) := by
  induction ks generalizing target with
  | nil => exact absurd rfl hks
  | cons k rest ih =>
    cases rest with
    | nil => simp
    | cons k' ks =>
      obtain ⟨sub, hsub, hnot, -⟩ := child_of_not_leafAbove h
      rw [insertInto_cons_cons target sub k k' ks v hsub]
      simpa using ih (List.cons_ne_nil _ _) hnot

/-- The frame: a path that neither is a prefix of the keys nor extends them leads
where it did. -/
theorem lookup_insertInto_of_unrelated (h : ¬LeafAbove target ks) {p : List κ}
    (h₁ : ¬p <+: ks) (h₂ : ¬ks <+: p) :
    (Node.dict (insertInto target ks v).1).lookup p = (Node.dict target).lookup p := by
  induction ks generalizing target p with
  | nil => exact absurd List.nil_prefix h₂
  | cons k rest ih =>
    obtain _ | ⟨j, p⟩ := p
    · exact absurd List.nil_prefix h₁
    by_cases hj : k = j
    · subst hj
      simp only [List.cons_prefix_cons, true_and] at h₁ h₂
      cases rest with
      | nil => exact absurd List.nil_prefix h₂
      | cons k' ks =>
        obtain ⟨sub, hsub, hnot, hchild⟩ := child_of_not_leafAbove h
        have hp : p ≠ [] := by rintro rfl; exact h₁ List.nil_prefix
        rw [insertInto_cons_cons target sub k k' ks v hsub, hchild p hp]
        simpa using ih hnot h₁ h₂
    · cases rest with
      | nil => simp [hj]
      | cons k' ks =>
        obtain ⟨sub, hsub, -, -⟩ := child_of_not_leafAbove h
        rw [insertInto_cons_cons target sub k k' ks v hsub]
        simp [hj]

/-- No path below the keys is left: a `dict` that was there is replaced. -/
theorem lookup_insertInto_of_extends (hks : ks ≠ []) (h : ¬LeafAbove target ks) {p : List κ}
    (hp : ks <+: p) (hne : p ≠ ks) : (Node.dict (insertInto target ks v).1).lookup p = none := by
  induction ks generalizing target p with
  | nil => exact absurd rfl hks
  | cons k rest ih =>
    obtain ⟨t, rfl⟩ := hp
    cases rest with
    | nil =>
      have ht : t ≠ [] := by rintro rfl; exact hne rfl
      obtain ⟨j, t, rfl⟩ := List.exists_cons_of_ne_nil ht
      simp
    | cons k' ks =>
      obtain ⟨sub, hsub, hnot, -⟩ := child_of_not_leafAbove h
      rw [insertInto_cons_cons target sub k k' ks v hsub]
      simpa using ih (List.cons_ne_nil _ _) hnot ⟨t, rfl⟩ (by simpa using hne)

/-- The proper prefixes of the keys lead to `dict`s. -/
theorem lookup_insertInto_of_prefix (hks : ks ≠ []) (h : ¬LeafAbove target ks) {p : List κ}
    (hp : p <+: ks) (hne : p ≠ ks) :
    ∃ d, (Node.dict (insertInto target ks v).1).lookup p = some (.dict d) := by
  induction ks generalizing target p with
  | nil => exact absurd rfl hks
  | cons k rest ih =>
    rcases List.prefix_cons_iff.mp hp with rfl | ⟨t, rfl, ht⟩
    · exact ⟨_, rfl⟩
    cases rest with
    | nil => exact absurd (by rw [List.prefix_nil.mp ht]) hne
    | cons k' ks =>
      obtain ⟨sub, hsub, hnot, -⟩ := child_of_not_leafAbove h
      rw [insertInto_cons_cons target sub k k' ks v hsub]
      simpa using ih (List.cons_ne_nil _ _) hnot ht (by simpa using hne)

/-- After an insertion that raises nothing, a proper prefix `p` of the keys leads to a
`dict` whose keys are those of the `dict` it led to before, if any, with the key after `p`
last when it is new. -/
theorem lookup_insertInto_dictKeys {p : List κ} {k : κ} {rest : List κ}
    (h : ¬LeafAbove target (p ++ k :: rest)) :
    ∃ d, (Node.dict (insertInto target (p ++ k :: rest) v).1).lookup p = some (.dict d) ∧
      d.map Prod.fst = addKey (Node.dictKeys ((Node.dict target).lookup p)) k := by
  induction p generalizing target with
  | nil =>
    cases rest with
    | nil => exact ⟨_, rfl, by simp [map_fst_setItem, Node.dictKeys]⟩
    | cons k' rest =>
      obtain ⟨sub, hsub, -, -⟩ := child_of_not_leafAbove (by simpa using h)
      rw [List.nil_append, insertInto_cons_cons target sub k k' rest v hsub]
      exact ⟨_, rfl, by simp [map_fst_setItem, Node.dictKeys]⟩
  | cons j p ih =>
    obtain ⟨k', ks, hks⟩ : ∃ k' ks, p ++ k :: rest = k' :: ks := by cases p <;> simp
    obtain ⟨sub, hsub, hnot, hchild⟩ :=
      child_of_not_leafAbove (k := j) (by rw [← hks]; simpa using h)
    rw [List.cons_append, hks, insertInto_cons_cons target sub j k' ks v hsub]
    simp only [Node.lookup_dict_cons, getItem_setItem_self, Option.some_bind]
    rw [← hks] at hnot ⊢
    obtain ⟨d, hd, hkeys⟩ := ih hnot
    refine ⟨d, hd, hkeys.trans (congrArg (addKey · k) ?_)⟩
    cases p with
    | nil => cases hj : getItem target j <;> simp_all [Node.dictKeys]
    | cons i p => rw [← Node.lookup_dict_cons, hchild _ (List.cons_ne_nil _ _)]

/-- The leaves after an insertion that raises nothing: the new one, and the old ones
that are not below the keys. -/
theorem lookup_insertInto_eq_leaf (hks : ks ≠ []) (h : ¬LeafAbove target ks) (p : List κ)
    (l : α) :
    (Node.dict (insertInto target ks v).1).lookup p = some (.leaf l) ↔
      (p = ks ∧ l = v) ∨ (¬ks <+: p ∧ (Node.dict target).lookup p = some (.leaf l)) := by
  by_cases hp : p = ks
  · subst hp
    simp [lookup_insertInto_self hks h, eq_comm]
  by_cases hext : ks <+: p
  · simp [lookup_insertInto_of_extends hks h hext hp, hp, hext]
  by_cases hpre : p <+: ks
  · obtain ⟨d, hd⟩ := lookup_insertInto_of_prefix (v := v) hks h hpre hp
    have hold : (Node.dict target).lookup p ≠ some (.leaf l) := fun h' => h ⟨p, l, hpre, hp, h'⟩
    simp [hd, hp, hold]
  · simp [lookup_insertInto_of_unrelated h hpre hext, hp, hext]

end Descent

/-- `insert_into` raises exactly when a proper prefix of the keys leads to a leaf, and
then leaves the mapping as it was; otherwise the keys lead to the value, every path
neither a prefix nor an extension of the keys leads where it did, and nothing is left
below the keys. -/
theorem insertInto_correct (target : List (κ × Node κ α)) (ks : List κ) (v : α)
    (hks : ks ≠ []) :
    ((insertInto target ks v).2.isSome ↔
        ∃ p l, p <+: ks ∧ p ≠ ks ∧ (Node.dict target).lookup p = some (.leaf l)) ∧
      ((insertInto target ks v).2.isSome → (insertInto target ks v).1 = target) ∧
      ((insertInto target ks v).2 = none →
        (Node.dict (insertInto target ks v).1).lookup ks = some (.leaf v) ∧
        (∀ p, ¬p <+: ks → ¬ks <+: p →
          (Node.dict (insertInto target ks v).1).lookup p = (Node.dict target).lookup p) ∧
        ∀ p, ks <+: p → p ≠ ks → (Node.dict (insertInto target ks v).1).lookup p = none) := by
  by_cases h : LeafAbove target ks
  · rw [insertInto_of_leafAbove target ks v h]
    exact ⟨iff_of_true rfl h, fun _ => rfl, by simp⟩
  · have hok := insertInto_ok (v := v) hks h
    refine ⟨iff_of_false (by simp [hok]) h, by simp [hok], fun _ => ⟨lookup_insertInto_self hks h,
      fun p => lookup_insertInto_of_unrelated h, fun p => lookup_insertInto_of_extends hks h⟩⟩

theorem insertInto_correct_users :
    (["users", "create"] ≠ []) ∧
      let target : List (String × Node String Nat) := [("users", .dict [("list", .leaf 1)])]
      ((insertInto target ["users", "create"] 2).2.isSome ↔
          ∃ p l, p <+: ["users", "create"] ∧ p ≠ ["users", "create"] ∧
            (Node.dict target).lookup p = some (.leaf l)) ∧
        ((insertInto target ["users", "create"] 2).2.isSome →
          (insertInto target ["users", "create"] 2).1 = target) ∧
        ((insertInto target ["users", "create"] 2).2 = none →
          (Node.dict (insertInto target ["users", "create"] 2).1).lookup ["users", "create"] =
              some (.leaf 2) ∧
          (∀ p, ¬p <+: ["users", "create"] → ¬["users", "create"] <+: p →
            (Node.dict (insertInto target ["users", "create"] 2).1).lookup p =
              (Node.dict target).lookup p) ∧
          ∀ p, ["users", "create"] <+: p → p ≠ ["users", "create"] →
            (Node.dict (insertInto target ["users", "create"] 2).1).lookup p = none) :=
  ⟨by decide, insertInto_correct _ _ _ (by decide)⟩

end RestSchemas
