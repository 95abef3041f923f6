import Mathlib.Data.List.Basic

/-!
# The Python built-ins `schemas.py` calls

The schema generator reads URL paths, HTTP method names and view docstrings through
a handful of `str` methods, keeps links in nested `dict`s, and can raise a few kinds
of exception on the paths modelled here (`PyError`). `RaisesOnly errs x` says that `x`
returns or raises one of `errs`; it is built up along a computation's steps
(`RaisesOnly.bind`).

Every `str` method works on the characters of a `String` (a `str` is a sequence of
code points, as a `String` is a list of `Char`s), by structural recursion, so that the
model evaluates by `decide`. A `dict` is an association list in insertion order:
`getItem` is `d[k]` and `k in d`, `setItem` is `d[k] = v`, which overwrites a key in
place and appends a new one (`getItem_setItem`).
-/

namespace RestSchemas

/-- The exceptions the modelled code raises. `permissionDenied` and `methodNotAllowed` are
REST framework's `PermissionDenied` and `MethodNotAllowed`; `apiException name` is any
other of its `APIException`s, by class name (`NotAuthenticated`, `Throttled`, ...). -/
inductive PyError
  | attributeError
  | indexError
  | keyError
  | typeError
  | valueError
  | permissionDenied
  | methodNotAllowed
  | apiException (name : String)
deriving DecidableEq, Repr

namespace Py

/-- A computation that raises nothing ran its first step without raising. -/
theorem bind_eq_ok {ε α β : Type} {x : Except ε α} {f : α → Except ε β} {b : β} :
    x >>= f = .ok b ↔ ∃ a, x = .ok a ∧ f a = .ok b := by
  cases x <;> simp [bind, Except.bind]

/-- `x` returns, or raises one of `errs`. -/
def RaisesOnly {α : Type} (errs : List PyError) : Except PyError α → Prop
  | .ok _ => True
  | .error err => err ∈ errs

section RaisesOnly

variable {α β : Type} {errs errs' : List PyError}

@[simp] theorem raisesOnly_ok (a : α) : RaisesOnly errs (.ok a : Except PyError α) :=
  trivial

@[simp] theorem raisesOnly_error (err : PyError) :
    RaisesOnly errs (.error err : Except PyError α) ↔ err ∈ errs :=
  Iff.rfl

/-- A computation raises what its steps raise. -/
theorem RaisesOnly.bind {x : Except PyError α} {f : α → Except PyError β}
    (hx : RaisesOnly errs x) (hf : ∀ a, x = .ok a → RaisesOnly errs (f a)) :
    RaisesOnly errs (x >>= f) := by
  cases x with
  | error err => exact hx
  | ok a => exact hf a rfl

theorem RaisesOnly.map {x : Except PyError α} (f : α → β) (hx : RaisesOnly errs x) :
    RaisesOnly errs (f <$> x) := by
  cases x with
  | error err => exact hx
  | ok a => trivial

theorem RaisesOnly.mono {x : Except PyError α} (h : errs ⊆ errs') (hx : RaisesOnly errs x) :
    RaisesOnly errs' x := by
  cases x with
  | error err => exact h hx
  | ok a => trivial

end RaisesOnly

/-! ## `str` -/

/-- `str.isspace` of one character, by code point: the characters `str.strip()`
removes. -/
def isSpace (c : Char) : Bool :=
  let n := c.toNat
  (9 ≤ n && n ≤ 13) || (28 ≤ n && n ≤ 32) || n = 0x85 || n = 0xa0 || n = 0x1680 ||
    (0x2000 ≤ n && n ≤ 0x200a) || n = 0x2028 || n = 0x2029 || n = 0x202f ||
    n = 0x205f || n = 0x3000

/-- `str.strip`, removing the characters that satisfy `p` from both ends. -/
def stripBy (p : Char → Bool) (s : String) : String :=
  ⟨((s.data.dropWhile p).reverse.dropWhile p).reverse⟩

/-- `str.strip()`. -/
def strip : String → String :=
  stripBy isSpace

/-- `str.strip(c)` for one character `c`. -/
def stripChar (c : Char) : String → String :=
  stripBy (· = c)

/-- `str.split(sep)` for a one-character separator. -/
def split (s : String) (sep : Char) : List String :=
  (s.data.splitOn sep).map String.mk

/-- The characters at which `str.splitlines()` ends a line, by code point; `"\r\n"`
is one break. -/
def isLineBreak (c : Char) : Bool :=
  let n := c.toNat
  (10 ≤ n && n ≤ 13) || (28 ≤ n && n ≤ 30) || n = 0x85 || n = 0x2028 || n = 0x2029

/-- `str.splitlines()` on characters: a final line break ends the last line and
does not start another. -/
def splitLinesAux : List Char → List (List Char)
  | [] => []
  | '\r' :: '\n' :: cs => [] :: splitLinesAux cs
  | c :: cs =>
    if isLineBreak c then [] :: splitLinesAux cs
    else match splitLinesAux cs with
      | [] => [[c]]
      | l :: ls => (c :: l) :: ls

/-- `str.splitlines()`. -/
def splitlines (s : String) : List String :=
  (splitLinesAux s.data).map String.mk

/-- `str.partition(sep)`: the text before the first `sep`, the separator (empty when
`sep` does not occur), and the text after it. -/
def partition (s : String) (sep : Char) : String × String × String :=
  match s.data.span (· ≠ sep) with
  | (before, []) => (⟨before⟩, "", "")
  | (before, _ :: after) => (⟨before⟩, ⟨[sep]⟩, ⟨after⟩)

theorem partition_fst (s : String) (sep : Char) :
    (partition s sep).1 = ⟨s.data.takeWhile (· ≠ sep)⟩ := by
  unfold partition
  rw [List.span_eq_take_drop]
  split <;> simp_all

/-- No part `str.split(sep)` returns holds the separator. -/
theorem not_mem_of_mem_splitOn {sep : Char} :
    ∀ {cs : List Char} {part : List Char}, part ∈ cs.splitOn sep → sep ∉ part
  | [], part, h => by simp_all [List.splitOn_nil]
  | c :: cs, part, h => by
    obtain ⟨first, rest, hsplit⟩ :=
      List.exists_cons_of_ne_nil (List.splitOnP_ne_nil (· == sep) cs)
    have ih : ∀ part ∈ first :: rest, sep ∉ part := fun part hpart =>
      not_mem_of_mem_splitOn (show part ∈ cs.splitOn sep by
        rw [List.splitOn, hsplit]
        exact hpart)
    rw [List.splitOn, List.splitOnP_cons, hsplit] at h
    by_cases hc : (c == sep) = true
    · rw [if_pos hc] at h
      rcases List.mem_cons.mp h with rfl | h
      · exact List.not_mem_nil sep
      · exact ih part h
    · rw [if_neg hc, List.modifyHead_cons] at h
      rcases List.mem_cons.mp h with rfl | h
      · rintro (_ | ⟨_, hm⟩)
        · exact hc (beq_self_eq_true _)
        · exact ih first (List.mem_cons_self _ _) hm
      · exact ih part (List.mem_cons_of_mem _ h)

/-- `s.split(sep)` has two parts exactly when `s` is two texts without `sep` joined by
it. -/
theorem split_eq_pair_iff {s a b : String} {sep : Char} :
    split s sep = [a, b] ↔ s = a ++ ⟨[sep]⟩ ++ b ∧ sep ∉ a.data ∧ sep ∉ b.data := by
  constructor
  · intro h
    have hparts : s.data.splitOn sep = [a.data, b.data] := by
      simpa [split, List.map_eq_cons_iff, String.ext_iff] using h
    refine ⟨?_, not_mem_of_mem_splitOn (show a.data ∈ s.data.splitOn sep by simp [hparts]),
      not_mem_of_mem_splitOn (show b.data ∈ s.data.splitOn sep by simp [hparts])⟩
    rw [String.ext_iff, ← List.intercalate_splitOn s.data sep, hparts]
    simp [List.intercalate]
  · rintro ⟨rfl, ha, hb⟩
    have hparts : ([sep].intercalate [a.data, b.data]).splitOn sep = [a.data, b.data] :=
      List.splitOn_intercalate [a.data, b.data] sep (by simp [ha, hb]) (List.cons_ne_nil _ _)
    simp_all [split, List.intercalate]

/-- `str.lower()` on ASCII letters; HTTP method names are ASCII. -/
def lower (s : String) : String :=
  ⟨s.data.map Char.toLower⟩

/-- `str.upper()` on ASCII letters. -/
def upper (s : String) : String :=
  ⟨s.data.map Char.toUpper⟩

/-- `s.startswith(pre)`. -/
def startswith (s pre : String) : Bool :=
  pre.data.isPrefixOf s.data

/-- `s.endswith(suf)`. -/
def endswith (s suf : String) : Bool :=
  suf.data.isSuffixOf s.data

/-! ## `dict` -/

variable {κ β : Type} [DecidableEq κ]

/-- `d[k]`, `none` when `k not in d`. -/
def getItem : List (κ × β) → κ → Option β
  | [], _ => none
  | (k', v) :: d, k => if k' = k then some v else getItem d k

/-- `d[k] = v`: an existing key keeps its place, a new one goes last. -/
def setItem : List (κ × β) → κ → β → List (κ × β)
  | [], k, v => [(k, v)]
  | (k', v') :: d, k, v => if k' = k then (k, v) :: d else (k', v') :: setItem d k v

@[simp] theorem getItem_nil (k : κ) : getItem ([] : List (κ × β)) k = none :=
  rfl

theorem mem_of_getItem {d : List (κ × β)} {k : κ} {v : β} (h : getItem d k = some v) :
    (k, v) ∈ d := by
  induction d with
  | nil => simp at h
  | cons e d ih =>
    obtain ⟨k₀, v₀⟩ := e
    unfold getItem at h
    split at h
    · cases h
      simp_all
    · exact List.mem_cons_of_mem _ (ih h)

/-- A key paired in `d` is in `d`. -/
theorem getItem_isSome_of_mem {d : List (κ × β)} {k : κ} {v : β} (h : (k, v) ∈ d) :
    (getItem d k).isSome := by
  induction d with
  | nil => simp at h
  | cons e d ih =>
    obtain ⟨k₀, v₀⟩ := e
    unfold getItem
    split
    · rfl
    · next hk =>
      rcases List.mem_cons.mp h with h | h
      · exact absurd (congrArg Prod.fst h).symm hk
      · exact ih h

/-- With distinct keys, `d[k]` is the value paired with `k`. -/
theorem getItem_eq_some_iff_mem {d : List (κ × β)} (hd : (d.map Prod.fst).Nodup) {k : κ} {v : β} :
    getItem d k = some v ↔ (k, v) ∈ d := by
  induction d with
  | nil => simp
  | cons e d ih =>
    obtain ⟨k₀, v₀⟩ := e
    simp only [List.map_cons, List.nodup_cons, List.mem_map] at hd
    by_cases hk : k₀ = k
    · subst hk
      have hnot : (k₀, v) ∉ d := fun h => hd.1 ⟨_, h, rfl⟩
      simp [getItem, hnot, eq_comm]
    · simp [getItem, hk, Ne.symm hk, ih hd.2]

@[simp] theorem setItem_ne_nil (d : List (κ × β)) (k : κ) (v : β) : setItem d k v ≠ [] := by
  cases d with
  | nil => simp [setItem]
  | cons e d => unfold setItem; split <;> simp

theorem getItem_setItem (d : List (κ × β)) (k k' : κ) (v : β) :
    getItem (setItem d k v) k' = if k = k' then some v else getItem d k' := by
  induction d with
  | nil => simp [setItem, getItem]
  | cons e d ih =>
    obtain ⟨k₀, v₀⟩ := e
    by_cases h₀ : k₀ = k
    · subst h₀
      by_cases h : k₀ = k' <;> simp [setItem, getItem, h]
    · by_cases h : k₀ = k'
      · subst h
        simp [setItem, getItem, h₀, Ne.symm h₀]
      · simp [setItem, getItem, h₀, h, ih]

@[simp] theorem getItem_setItem_self (d : List (κ × β)) (k : κ) (v : β) :
    getItem (setItem d k v) k = some v := by
  simp [getItem_setItem]

@[simp] theorem getItem_setItem_of_ne (d : List (κ × β)) {k k' : κ} (v : β) (h : k ≠ k') :
    getItem (setItem d k v) k' = getItem d k' := by
  simp [getItem_setItem, h]

/-- The keys of a `dict` after `d[k] = v`: unchanged when `k` is one of them, `k` last
otherwise. -/
def addKey (keys : List κ) (k : κ) : List κ :=
  if k ∈ keys then keys else keys ++ [k]

theorem map_fst_setItem (d : List (κ × β)) (k : κ) (v : β) :
    (setItem d k v).map Prod.fst = addKey (d.map Prod.fst) k := by
  induction d with
  | nil => simp [setItem, addKey]
  | cons e d ih =>
    obtain ⟨k₀, v₀⟩ := e
    by_cases h₀ : k₀ = k
    · subst h₀
      simp [setItem, addKey]
    · simp only [setItem, h₀, if_false, List.map_cons, ih, addKey, List.mem_cons, Ne.symm h₀,
        false_or]
      split <;> rfl

/-- Storing the value a key already holds leaves the `dict` unchanged. -/
theorem setItem_of_getItem {d : List (κ × β)} {k : κ} {v : β} (h : getItem d k = some v) :
    setItem d k v = d := by
  induction d with
  | nil => simp at h
  | cons e d ih =>
    obtain ⟨k₀, v₀⟩ := e
    by_cases h₀ : k₀ = k
    · subst h₀
      simp_all [getItem, setItem]
    · simp_all [getItem, setItem]

end Py

end RestSchemas
