import Mathlib.Data.List.Sort

/-!
# Python's `sorted`

`sorted(xs, key=f)` is stable: elements with equal keys keep their input order. A
stable sort's result is therefore determined by its input: it is the one list that is
sorted by the key and lists the elements of each key in their input order
(`eq_pySorted_iff`). `pySorted` computes it by insertion sort, which is structurally
recursive and so evaluates by `decide`; any other stable sort, CPython's Timsort
included, returns the same list.

`SameKeyOrder key xs ys` says that `xs` and `ys` list the elements of each key in the
same order. Sorting forgets everything else (`pySorted_congr`), and `SameKeyOrder` is a
congruence for `++` (`SameKeyOrder.append`): so sorting a block of a list before
sorting the whole list changes nothing, which is what `get_api_endpoints` does at
every level of the URL conf. Dropping elements commutes with the sort
(`pySorted_filter`).
-/

namespace RestSchemas

variable {α β : Type} [LinearOrder β] (key : α → β)

/-- `sorted(xs, key=key)`. -/
def pySorted (xs : List α) : List α :=
  xs.insertionSort fun a b => key a ≤ key b

/-- `xs` and `ys` list the elements of each key in the same order. -/
def SameKeyOrder (xs ys : List α) : Prop :=
  ∀ b, xs.filter (key · = b) = ys.filter (key · = b)

variable {key}

namespace SameKeyOrder

@[refl] theorem refl (xs : List α) : SameKeyOrder key xs xs :=
  fun _ => rfl

@[symm] theorem symm {xs ys : List α} (h : SameKeyOrder key xs ys) : SameKeyOrder key ys xs :=
  fun b => (h b).symm

@[trans] theorem trans {xs ys zs : List α} (h : SameKeyOrder key xs ys)
    (h' : SameKeyOrder key ys zs) : SameKeyOrder key xs zs :=
  fun b => (h b).trans (h' b)

theorem append {xs xs' ys ys' : List α} (h : SameKeyOrder key xs xs')
    (h' : SameKeyOrder key ys ys') : SameKeyOrder key (xs ++ ys) (xs' ++ ys') :=
  fun b => by simp only [List.filter_append, h b, h' b]

/-- Lists with the same order on each key have the same elements. -/
theorem mem_iff {xs ys : List α} (h : SameKeyOrder key xs ys) {x : α} : x ∈ xs ↔ x ∈ ys := by
  simpa using iff_of_eq (congrArg (x ∈ ·) (h (key x)))

end SameKeyOrder

theorem sorted_pySorted (xs : List α) : (pySorted key xs).Sorted fun a b => key a ≤ key b := by
  haveI : IsTotal α fun a b => key a ≤ key b := ⟨fun _ _ => le_total _ _⟩
  haveI : IsTrans α fun a b => key a ≤ key b := ⟨fun _ _ _ => le_trans⟩
  exact List.sorted_insertionSort _ xs

/-- Stability: the elements of each key come out in their input order. -/
theorem sameKeyOrder_pySorted (xs : List α) : SameKeyOrder key (pySorted key xs) xs := by
  intro b
  have hpair : (xs.filter (key · = b)).Pairwise fun a a' => key a ≤ key a' :=
    List.pairwise_of_forall_mem_list fun a ha a' ha' => by
      simp only [List.mem_filter, decide_eq_true_eq] at ha ha'
      rw [ha.2, ha'.2]
  have hsub : (xs.filter (key · = b)).Sublist ((pySorted key xs).filter (key · = b)) := by
    simpa [List.filter_filter] using
      (List.sublist_insertionSort hpair (List.filter_sublist xs)).filter (key · = b)
  exact (hsub.eq_of_length
    ((List.perm_insertionSort _ xs).filter (key · = b)).length_eq.symm).symm

/-- A list sorted by the key is determined by the order of each key's elements. -/
theorem eq_of_sorted_of_sameKeyOrder :
    ∀ {xs ys : List α}, xs.Sorted (fun a b => key a ≤ key b) →
      ys.Sorted (fun a b => key a ≤ key b) → SameKeyOrder key xs ys → xs = ys
  | [], [], _, _, _ => rfl
  | [], y :: ys, _, _, h => by simpa using h (key y)
  | x :: xs, [], _, _, h => by simpa using h (key x)
  | x :: xs, y :: ys, hx, hy, h => by
    rw [List.sorted_cons] at hx hy
    have hxy : key x = key y := by
      by_contra hne
      have hx' : x ∈ ys := (List.mem_cons.mp (h.mem_iff.mp (List.mem_cons_self x xs))).resolve_left
        fun e => hne (congrArg key e)
      have hy' : y ∈ xs := (List.mem_cons.mp (h.mem_iff.mpr (List.mem_cons_self y ys))).resolve_left
        fun e => hne (congrArg key e).symm
      exact hne (le_antisymm (hx.1 y hy') (hy.1 x hx'))
    have hhead := h (key x)
    simp only [List.filter_cons, decide_True, if_true, hxy] at hhead
    obtain ⟨rfl, -⟩ := List.cons.inj hhead
    refine congrArg _ (eq_of_sorted_of_sameKeyOrder hx.2 hy.2 fun b => ?_)
    have := h b
    by_cases hb : key x = b <;> simp_all [List.filter_cons]

/-- The sorted list is the one sorted by the key with each key's elements in input
order. -/
theorem eq_pySorted_iff {xs zs : List α} :
    zs = pySorted key xs ↔
      zs.Sorted (fun a b => key a ≤ key b) ∧ SameKeyOrder key zs xs := by
  constructor
  · rintro rfl
    exact ⟨sorted_pySorted xs, sameKeyOrder_pySorted xs⟩
  · rintro ⟨hs, hk⟩
    exact eq_of_sorted_of_sameKeyOrder hs (sorted_pySorted xs)
      (hk.trans (sameKeyOrder_pySorted xs).symm)

/-- Inputs that list each key's elements in the same order sort to the same list. -/
theorem pySorted_congr {xs ys : List α} (h : SameKeyOrder key xs ys) :
    pySorted key xs = pySorted key ys :=
  eq_pySorted_iff.mpr ⟨sorted_pySorted xs, (sameKeyOrder_pySorted xs).trans h⟩

/-- Dropping the elements a predicate rejects commutes with the sort. -/
theorem pySorted_filter (p : α → Bool) (xs : List α) :
    (pySorted key xs).filter p = pySorted key (xs.filter p) :=
  eq_pySorted_iff.mpr ⟨(sorted_pySorted xs).sublist (List.filter_sublist _), fun b => by
    simpa only [List.filter_filter, Bool.and_comm] using
      congrArg (List.filter p) (sameKeyOrder_pySorted xs b)⟩

end RestSchemas
