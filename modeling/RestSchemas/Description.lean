import RestSchemas.Host

/-!
# Link descriptions

`SchemaGenerator.get_description` takes a link's description from the docstring of the
view's action method when it has one. Otherwise it splits the view description into
sections: a line matching `header_regex` (`name:` at the start of a stripped line)
opens the section `name` with the text after the colon as its lead, and every other line
is appended, with a newline after it, to the section opened last. The section named
after the view's action (the lower-cased method on a plain view) is returned stripped,
or the text before the first header if there is none.

`parseSections` reads the same lines as a preamble and a list of `Section`s, each a
header's name and lead with the lines under it. `getDescription_eq_section` : without a
docstring, the description is the stripped text of the last section named after the
action, its stripped lead immediately followed by its lines, each with a newline after
it; with no such section it is the stripped preamble. The loop invariant behind it is
`getItem_sectionsLoop`. So a non-empty lead and the line after it end up on one line
(`getDescription_lead_joined`).
-/

namespace RestSchemas

open Py

/-- `header_regex.match(line)`, with `header_regex = re.compile('^[a-zA-Z][0-9A-Za-z_]*:')`. -/
def headerRegexMatch (line : String) : Bool :=
  match line.data with
  | c :: cs => c.isAlpha && (cs.dropWhile fun c => c.isAlphanum || c = '_').head? = some ':'
  | [] => false

/-- The loop of `get_description` over the stripped lines, from the current section's
name and the `sections` dict. The current section is always a key of `sections`. -/
def sectionsLoop : List String → String → List (String × String) → List (String × String)
  | [], _, sections => sections
  | line :: lines, current, sections =>
    if headerRegexMatch line then
      let (current, _, lead) := partition line ':'
      sectionsLoop lines current (setItem sections current (strip lead))
    else
      sectionsLoop lines current
        (setItem sections current ((getItem sections current).getD "" ++ (line ++ "\n")))

/-- `getattr(view, 'action', default)`: `none` when `view.action` is `None`. -/
def actionOr (view : View) (default : String) : Option String :=
  match view.action with
  | .unset => some default
  | .none => none
  | .named a => some a

/-- The stripped lines of the view description, and the section `get_description` picks
for `header`. -/
def sectionDescription (view : View) (header : String) : String :=
  let lines := (splitlines view.cls.viewDescription).map strip
  let sections := sectionsLoop lines "" [("", "")]
  match getItem sections header with
  | some text => strip text
  | none => strip ((getItem sections "").getD "")

/-- `SchemaGenerator.get_description(path, method, view)`. `getattr(view, None, None)`
raises `TypeError` when `view.action` is `None`; an empty docstring is falsy. -/
def getDescription (lib : Lib) (method : String) (view : View) : Except PyError String :=
  match actionOr view (lower method) with
  | none => .error .typeError
  | some methodName =>
    match view.cls.docstring methodName with
    | some doc => if doc ≠ "" then .ok (lib.dedent doc) else .ok (sectionDescription view methodName)
    | none => .ok (sectionDescription view methodName)

/-- The only exception is the `TypeError` of an action of `None`. -/
theorem getDescription_raisesOnly (lib : Lib) (method : String) (view : View) :
    RaisesOnly [.typeError] (getDescription lib method view) := by
  unfold getDescription
  split
  · simp
  · split
    · split <;> simp
    · simp

/-! ## Sections -/

/-- A section of a view description: its header's name and stripped lead, and the lines
under it up to the next header. -/
structure Section where
  name : String
  lead : String
  body : List String

/-- The lines before the first header, and the sections that follow, in order. -/
def parseSections : List String → List String × List Section
  | [] => ([], [])
  | line :: lines =>
    if headerRegexMatch line then
      ([], ⟨(partition line ':').1, strip (partition line ':').2.2, (parseSections lines).1⟩ ::
        (parseSections lines).2)
    else (line :: (parseSections lines).1, (parseSections lines).2)

/-- Lines, each followed by a newline, as the loop appends them. -/
def linesText : List String → String
  | [] => ""
  | line :: lines => line ++ "\n" ++ linesText lines

/-- The last section named `name`. -/
def lastNamed (sections : List Section) (name : String) : Option Section :=
  (sections.filter (·.name = name)).getLast?

/-- What the loop accumulates for a section. -/
def Section.text (s : Section) : String :=
  s.lead ++ linesText s.body

/-- The section of `lines` `get_description` returns for `header`, unstripped. -/
def pickSection (lines : List String) (header : String) : String :=
  match lastNamed (parseSections lines).2 header with
  | some s => s.text
  | none => linesText (parseSections lines).1

theorem lastNamed_cons (s : Section) (ss : List Section) (name : String) :
    lastNamed (s :: ss) name =
      (lastNamed ss name).or (if s.name = name then some s else none) := by
  unfold lastNamed
  by_cases h : s.name = name
  · rw [List.filter_cons_of_pos (by simpa using h)]
    cases hl : (ss.filter (·.name = name)).getLast? with
    | none => simp [List.getLast?_eq_none_iff.mp hl, h]
    | some t => simp [List.getLast?_cons, hl, h]
  · simp [List.filter_cons, h]

/-- A header's name is not empty: it starts with a letter. -/
theorem partition_ne_empty_of_headerRegexMatch {line : String} (h : headerRegexMatch line) :
    (partition line ':').1 ≠ "" := by
  obtain ⟨l⟩ := line
  cases l with
  | nil => simp [headerRegexMatch] at h
  | cons c cs =>
    have hc : c ≠ ':' := by
      rintro rfl
      simp [headerRegexMatch] at h
    simp [partition_fst, String.ext_iff, List.takeWhile_cons, hc]

theorem name_ne_empty_of_mem_parseSections :
    ∀ {lines : List String} {s : Section}, s ∈ (parseSections lines).2 → s.name ≠ ""
  | [], _, h => by simp [parseSections] at h
  | line :: lines, s, h => by
    unfold parseSections at h
    split at h
    · rcases List.mem_cons.mp h with rfl | h
      · exact partition_ne_empty_of_headerRegexMatch ‹_›
      · exact name_ne_empty_of_mem_parseSections h
    · exact name_ne_empty_of_mem_parseSections h

/-- The loop invariant: a key is the text of the last section of that name, or, for the
current section, what it held followed by the lines before the first header. -/
theorem getItem_sectionsLoop :
    ∀ (lines : List String) (current : String) (sections : List (String × String)) (text : String),
      getItem sections current = some text → ∀ key,
      getItem (sectionsLoop lines current sections) key =
        match lastNamed (parseSections lines).2 key with
        | some s => some s.text
        | none =>
          if key = current then some (text ++ linesText (parseSections lines).1)
          else getItem sections key
  | [], current, sections, text, htext, key => by
    by_cases hk : key = current
    · subst hk
      simp [sectionsLoop, parseSections, lastNamed, linesText, htext]
    · simp [sectionsLoop, parseSections, lastNamed, hk]
  | line :: lines, current, sections, text, htext, key => by
    by_cases hl : headerRegexMatch line
    · have ih := getItem_sectionsLoop lines (partition line ':').1
        (setItem sections (partition line ':').1 (strip (partition line ':').2.2)) _
        (getItem_setItem_self _ _ _) key
      simp only [sectionsLoop, hl, if_true, parseSections, lastNamed_cons, ih]
      cases lastNamed (parseSections lines).2 key with
      | some s => rfl
      | none =>
        by_cases hk : (partition line ':').1 = key
        · subst hk
          simp [Section.text]
        · by_cases hc : key = current
          · subst hc
            simp [Ne.symm hk, hk, htext, linesText]
          · simp [Ne.symm hk, hk, hc]
    · have ih := getItem_sectionsLoop lines current
        (setItem sections current (text ++ (line ++ "\n"))) _ (getItem_setItem_self _ _ _) key
      simp only [sectionsLoop, hl, Bool.false_eq_true, if_false, parseSections, htext,
        Option.getD_some, ih]
      cases lastNamed (parseSections lines).2 key with
      | some s => rfl
      | none =>
        by_cases hc : key = current
        · subst hc
          simp [linesText, String.append_assoc]
        · simp [hc, Ne.symm hc]

/-- Without a docstring, `get_description` returns the stripped section named after the
action. -/
theorem sectionDescription_eq (view : View) (header : String) :
    sectionDescription view header =
      strip (pickSection ((splitlines view.cls.viewDescription).map strip) header) := by
  set lines := (splitlines view.cls.viewDescription).map strip
  have hnone : lastNamed (parseSections lines).2 "" = none := by
    unfold lastNamed
    rw [List.getLast?_eq_none_iff, List.filter_eq_nil_iff]
    exact fun s hs => by simpa using name_ne_empty_of_mem_parseSections hs
  have hloop := getItem_sectionsLoop lines "" [("", "")] "" rfl
  unfold sectionDescription pickSection
  simp only [hloop, hnone]
  cases lastNamed (parseSections lines).2 header with
  | some s => rfl
  | none =>
    by_cases hh : header = ""
    · subst hh; simp [getItem]
    · simp [hh, Ne.symm hh, getItem]

/-- A plain view whose description has the lead of its `get` section on the header
line, and no docstrings. -/
def leadView : View where
  cls := { isApiView := true, allowedMethods := ["GET"],
           viewDescription := "get: Return the users.\n    Ordered by name." }
  action := .unset
  excludeFromSchema := false
  serializer := none
  paginationFields := none
  filterBackends := []
  parserMediaTypes := []
  request := none
  actionMap := none
  checkPermissions := fun _ => true

/-- Without a docstring on the action method, `get_description` returns the stripped
text of the last section named after the action (its stripped lead immediately
followed by its lines, each with a newline after it), or the stripped preamble. -/
theorem getDescription_eq_section (lib : Lib) (method : String) (view : View) (name : String)
    (hname : actionOr view (lower method) = some name)
    (hdoc : view.cls.docstring name = none ∨ view.cls.docstring name = some "") :
    getDescription lib method view =
      .ok (strip (pickSection ((splitlines view.cls.viewDescription).map strip) name)) := by
  unfold getDescription
  rcases hdoc with hdoc | hdoc <;> simp [hname, hdoc, sectionDescription_eq]

theorem getDescription_eq_section_leadView :
    (actionOr leadView (lower "GET") = some "get" ∧
        (leadView.cls.docstring "get" = none ∨ leadView.cls.docstring "get" = some "")) ∧
      ∀ lib : Lib, getDescription lib "GET" leadView =
        .ok (strip (pickSection ((splitlines leadView.cls.viewDescription).map strip) "get")) :=
  ⟨⟨rfl, .inl rfl⟩, fun lib => getDescription_eq_section lib "GET" leadView "get" rfl (.inl rfl)⟩

/-- The lead and the next line of a section are joined into one line. -/
theorem getDescription_lead_joined (lib : Lib) :
    getDescription lib "GET" leadView = .ok "Return the users.Ordered by name." :=
  rfl

end RestSchemas
