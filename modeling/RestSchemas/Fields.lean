import RestSchemas.Description

/-!
# Links and their fields

`SchemaGenerator.get_link` collects a link's fields from four sources in a fixed order:
the URI template's variables (`get_path_fields`), the request body as the view's
serializer declares it (`get_serializer_fields`), and on list views the paginator's and
the filter backends' query parameters. A link with a `form` or `body` field gets the
first encoding its view's parsers support.

`getSerializerFields_eq` : for `PUT`, `PATCH` and `POST` on a view whose serializer is a
`Serializer` but not a `ListSerializer`, the body fields are one `form` field per
declared field that is neither read-only nor hidden, in declaration order, named by the
field's `source`, required iff the field is and the method is not `PATCH`. The name is
the `source`, not the key the field is declared under (`getSerializerFields_source`).
`getSerializerFields_patch` : for `PATCH`, no body field is required, except the single
`data` field of a `ListSerializer`. `getLink_pathFields` : a link's `path` fields are its
path's template variables, followed by any `path` field a paginator or filter backend
declares. `getLink_encoding` : a link's encoding is one Core API supports, and it has one
exactly when a field is in the request body and a parser of the view accepts a supported
media type or `*/*`. Both rest on one description of what `get_link` returns
(`getLink_eq_ok`).
-/

namespace RestSchemas

open Py

/-- `as_query_fields(items)`: plain names become optional `query` fields. -/
def asQueryFields (items : List QueryItem) : List Field :=
  items.map fun
    | .field f => f
    | .name n => { name := n, required := false, location := "query" }

/-- `is_list_view(path, method, view)`: a viewset's action is `list`; a plain view's
method is `GET` and the last path component has no template variable. -/
def isListView (path method : String) (view : View) : Bool :=
  match view.action with
  | .named a => a = "list"
  | .none => false
  | .unset =>
    if lower method ≠ "get" then false
    else match (split (stripChar '/' path) '/').getLast? with
      | some last => if '\x7b' ∈ last.data then false else true
      | none => true

/-- The media types `get_encoding` accepts. -/
def supportedMediaTypes : List String :=
  ["application/json", "application/x-www-form-urlencoded", "multipart/form-data"]

/-- The loop of `get_encoding` over the parsers' media types. -/
def getEncodingLoop : List (Option String) → Option String
  | [] => none
  | mediaType :: rest =>
    match mediaType with
    | some m =>
      if m ∈ supportedMediaTypes then some m
      else if m = "*/*" then some "application/octet-stream"
      else getEncodingLoop rest
    | none => getEncodingLoop rest

/-- `SchemaGenerator.get_encoding(path, method, view)`. -/
def getEncoding (view : View) : Option String :=
  getEncodingLoop view.parserMediaTypes

/-- `SchemaGenerator.get_path_fields(path, method, view)`. -/
def getPathFields (lib : Lib) (path : String) : List Field :=
  (lib.uriVariables path).map fun v => { name := v, location := "path", required := true }

/-- `types_lookup`. -/
def typesTable : List (FieldClass × String) :=
  [(.field, "string"), (.integerField, "integer"), (.floatField, "number"),
    (.decimalField, "number"), (.booleanField, "boolean"), (.fileField, "file"),
    (.multipleChoiceField, "array"), (.manyRelatedField, "array"), (.serializer, "object"),
    (.listSerializer, "array")]

/-- Modelled from the spec: `ClassLookupDict.__getitem__` (REST framework's
`utils.field_mapping`, not among the sources) looks the classes of a field's MRO up in
the table in order, the most derived first, and raises `KeyError` when none is there. -/
def typesLookup : List FieldClass → Except PyError String
  | [] => .error .keyError
  | c :: mro =>
    match getItem typesTable c with
    | some type => .ok type
    | none => typesLookup mro

/-- The `coreapi.Field` `get_serializer_fields` builds for a writable field whose type
is `type`. -/
def bodyField (method : String) (field : SerializerField) (type : String) : Field :=
  { name := field.source, location := "form", required := field.required && method ≠ "PATCH",
    description := field.helpText.getD "", type := type }

/-- The body field of a writable field, with the type `types_lookup` gives its class. -/
def serializerField (method : String) (field : SerializerField) : Except PyError Field := do
  let type ← typesLookup field.mro
  pure (bodyField method field type)

/-- Read-only and hidden fields take no input. -/
def SerializerField.isWritable (field : SerializerField) : Bool :=
  !(field.readOnly || FieldClass.hiddenField ∈ field.mro)

/-- The loop of `get_serializer_fields` over `serializer.fields.values()`. -/
def serializerFieldsLoop (method : String) : List SerializerField → Except PyError (List Field)
  | [] => .ok []
  | field :: fields =>
    if field.isWritable then do
      let f ← serializerField method field
      let rest ← serializerFieldsLoop method fields
      pure (f :: rest)
    else serializerFieldsLoop method fields

/-- `SchemaGenerator.get_serializer_fields(path, method, view)`. -/
def getSerializerFields (method : String) (view : View) : Except PyError (List Field) :=
  if method ∉ ["PUT", "PATCH", "POST"] then .ok []
  else match view.serializer with
    | none => .ok []
    | some serializer =>
      if FieldClass.listSerializer ∈ serializer.mro then
        .ok [{ name := "data", location := "body", required := true, type := "array" }]
      else if FieldClass.serializer ∉ serializer.mro then .ok []
      else serializerFieldsLoop method (serializer.fields.map Prod.snd)

/-- `SchemaGenerator.get_pagination_fields(path, method, view)`. -/
def getPaginationFields (path method : String) (view : View) : List Field :=
  if !isListView path method view then []
  else match view.paginationFields with
    | none => []
    | some items => asQueryFields items

/-- `SchemaGenerator.get_filter_fields(path, method, view)`. -/
def getFilterFields (path method : String) (view : View) : List Field :=
  if !isListView path method view then []
  else if view.filterBackends.isEmpty then []
  else (view.filterBackends.map asQueryFields).flatten

/-- `SchemaGenerator.get_link(path, method, view)`, for the generator's `url` (`""` for
`None`). -/
def getLink (lib : Lib) (url path method : String) (view : View) : Except PyError Link := do
  let serializerFields ← getSerializerFields method view
  let fields := getPathFields lib path ++ serializerFields ++ getPaginationFields path method view ++
    getFilterFields path method view
  let encoding :=
    if fields ≠ [] ∧ fields.any (fun f => f.location ∈ ["form", "body"]) then getEncoding view
    else none
  let description ← getDescription lib method view
  let path := if url ≠ "" ∧ startswith path "/" then ⟨path.data.drop 1⟩ else path
  pure { url := lib.urljoin url path, action := lower method, encoding := encoding,
         fields := fields, description := description }

/-! ## The body fields -/

/-- Every serializer field's class derives from `Field`, which the table has, so the
lookup never raises. -/
theorem typesLookup_ok : ∀ {mro : List FieldClass}, FieldClass.field ∈ mro →
    ∃ type, typesLookup mro = .ok type
  | [], h => absurd h (List.not_mem_nil _)
  | c :: mro, h => by
    unfold typesLookup
    cases ht : getItem typesTable c with
    | some type => exact ⟨type, rfl⟩
    | none =>
      have hc : c ≠ .field := by rintro rfl; simp [getItem, typesTable] at ht
      exact typesLookup_ok (List.mem_of_ne_of_mem (Ne.symm hc) h)

/-- One `form` field for each writable field, in order, with its `source` as name. -/
def BodyFieldsOf (method : String) (fields : List SerializerField) (result : List Field) : Prop :=
  List.Forall₂ (fun field f => f.name = field.source ∧ f.location = "form" ∧
      f.required = (field.required && method ≠ "PATCH") ∧
      f.description = field.helpText.getD "" ∧ typesLookup field.mro = .ok f.type)
    (fields.filter SerializerField.isWritable) result

theorem serializerFieldsLoop_ok (method : String) :
    ∀ fields : List SerializerField, ∃ result,
      serializerFieldsLoop method fields = .ok result ∧ BodyFieldsOf method fields result
  | [] => ⟨[], rfl, by simp [BodyFieldsOf]⟩
  | field :: fields => by
    obtain ⟨result, hres, hbody⟩ := serializerFieldsLoop_ok method fields
    by_cases hw : field.isWritable
    · obtain ⟨type, ht⟩ := typesLookup_ok field.isField
      refine ⟨bodyField method field type :: result, by simp [serializerFieldsLoop, hw,
        serializerField, ht, hres, bind, Except.bind, pure, Except.pure], ?_⟩
      simp only [BodyFieldsOf, List.filter_cons, hw, if_true]
      exact .cons ⟨rfl, rfl, rfl, rfl, ht⟩ hbody
    · refine ⟨result, by simp [serializerFieldsLoop, hw, hres], ?_⟩
      simpa [BodyFieldsOf, List.filter_cons, hw] using hbody

/-- What `get_serializer_fields` returns: no field, the `data` field of a
`ListSerializer`, or the body fields of the writable fields of a `Serializer`. -/
theorem getSerializerFields_cases (method : String) (view : View) :
    getSerializerFields method view = .ok [] ∨
      (∃ serializer, view.serializer = some serializer ∧
        FieldClass.listSerializer ∈ serializer.mro ∧ getSerializerFields method view =
          .ok [{ name := "data", location := "body", required := true, type := "array" }]) ∨
      ∃ result, getSerializerFields method view = .ok result ∧
        ∃ serializer, view.serializer = some serializer ∧
          BodyFieldsOf method (serializer.fields.map Prod.snd) result := by
  unfold getSerializerFields
  split
  · exact .inl rfl
  · cases hview : view.serializer with
    | none => exact .inl rfl
    | some serializer =>
      dsimp only
      split_ifs with hlist hser
      · exact .inr (.inl ⟨serializer, rfl, hlist, rfl⟩)
      · obtain ⟨result, hres, hbody⟩ := serializerFieldsLoop_ok method (serializer.fields.map Prod.snd)
        exact .inr (.inr ⟨result, hres, serializer, rfl, hbody⟩)
      · exact .inl rfl

/-- `get_serializer_fields` raises nothing. -/
theorem getSerializerFields_ok (method : String) (view : View) :
    ∃ fields, getSerializerFields method view = .ok fields := by
  rcases getSerializerFields_cases method view with h | ⟨_, -, -, h⟩ | ⟨_, h, -⟩ <;> exact ⟨_, h⟩

/-- Each body field is the `form` field of a writable declared field. -/
theorem BodyFieldsOf.exists_of_mem {method : String} {fields : List SerializerField}
    {result : List Field} (h : BodyFieldsOf method fields result) {f : Field} (hf : f ∈ result) :
    ∃ field ∈ fields.filter SerializerField.isWritable,
      f.location = "form" ∧ f.required = (field.required && method ≠ "PATCH") := by
  unfold BodyFieldsOf at h
  generalize fields.filter SerializerField.isWritable = writable at h ⊢
  induction h with
  | nil => simp at hf
  | cons hfield _ ih =>
    rcases List.mem_cons.mp hf with rfl | hf
    · exact ⟨_, List.mem_cons_self _ _, hfield.2.1, hfield.2.2.1⟩
    · obtain ⟨field, hmem, hrest⟩ := ih hf
      exact ⟨field, List.mem_cons_of_mem _ hmem, hrest⟩

/-- An `EmailField(source='user.email')`. -/
def emailField : SerializerField where
  mro := [.other "EmailField", .other "CharField", .field]
  source := "user.email"
  readOnly := false
  required := true
  helpText := none
  isField := by decide

/-- A `Serializer` that declares `emailField` as `email`. -/
def emailSerializer : Serializer where
  mro := [.other "UserSerializer", .serializer, .field]
  fields := [("email", emailField)]

/-- A view whose `get_serializer()` returns `emailSerializer`, with REST framework's default
parsers (`JSONParser`, `FormParser`, `MultiPartParser`). -/
def emailView : View where
  cls := { isApiView := true, allowedMethods := ["POST"] }
  action := .unset
  excludeFromSchema := false
  serializer := some emailSerializer
  paginationFields := none
  filterBackends := []
  parserMediaTypes := [some "application/json", some "application/x-www-form-urlencoded",
    some "multipart/form-data"]
  request := none
  actionMap := none
  checkPermissions := fun _ => true

/-- For `PUT`, `PATCH` and `POST` on a view whose serializer is a `Serializer` and not a
`ListSerializer`, the body fields are one `form` field per writable declared field, in
order, named by its `source`, required iff the field is and the method is not `PATCH`. -/
theorem getSerializerFields_eq (method : String) (view : View) (serializer : Serializer)
    (hmethod : method ∈ ["PUT", "PATCH", "POST"]) (hview : view.serializer = some serializer)
    (hser : FieldClass.serializer ∈ serializer.mro)
    (hlist : FieldClass.listSerializer ∉ serializer.mro) :
    ∃ result, getSerializerFields method view = .ok result ∧
      BodyFieldsOf method (serializer.fields.map Prod.snd) result := by
  simpa [getSerializerFields, hmethod, hview, hser, hlist] using
    serializerFieldsLoop_ok method (serializer.fields.map Prod.snd)

theorem getSerializerFields_eq_email :
    ("POST" ∈ ["PUT", "PATCH", "POST"] ∧ emailView.serializer = some emailSerializer ∧
        FieldClass.serializer ∈ emailSerializer.mro ∧
        FieldClass.listSerializer ∉ emailSerializer.mro) ∧
      ∃ result, getSerializerFields "POST" emailView = .ok result ∧
        BodyFieldsOf "POST" (emailSerializer.fields.map Prod.snd) result :=
  ⟨⟨by decide, rfl, by decide, by decide⟩,
    getSerializerFields_eq "POST" emailView emailSerializer (by decide) rfl (by decide) (by decide)⟩

/-- The body field declared as `email` is named `user.email`. -/
theorem getSerializerFields_source :
    getSerializerFields "POST" emailView =
      .ok [{ name := "user.email", required := true, location := "form", type := "string" }] :=
  rfl

/-- For `PATCH`, `get_serializer_fields` raises nothing, and a body field is required only
as the single `data` field of a `ListSerializer`. -/
theorem getSerializerFields_patch (view : View) :
    ∃ fields, getSerializerFields "PATCH" view = .ok fields ∧
      ∀ f ∈ fields, f.required →
        fields = [{ name := "data", location := "body", required := true, type := "array" }] ∧
        ∃ serializer, view.serializer = some serializer ∧
          FieldClass.listSerializer ∈ serializer.mro := by
  rcases getSerializerFields_cases "PATCH" view with h | ⟨serializer, hview, hlist, h⟩ |
      ⟨result, h, _, -, hbody⟩
  · exact ⟨[], h, by simp⟩
  · exact ⟨_, h, fun _ _ _ => ⟨rfl, serializer, hview, hlist⟩⟩
  · refine ⟨result, h, fun f hf hreq => ?_⟩
    obtain ⟨field, -, -, hr⟩ := hbody.exists_of_mem hf
    simp [hr] at hreq

/-- The fields `get_serializer_fields` returns are in the request body: `form` fields, or
the `body` field of a `ListSerializer`. -/
theorem location_of_mem_getSerializerFields {method : String} {view : View} {fields : List Field}
    (h : getSerializerFields method view = .ok fields) {f : Field} (hf : f ∈ fields) :
    f.location = "form" ∨ f.location = "body" := by
  rcases getSerializerFields_cases method view with h' | ⟨-, -, -, h'⟩ | ⟨result, h', _, -, hbody⟩ <;>
    rw [h'] at h <;> cases h
  · cases hf
  · simp_all
  · obtain ⟨_, -, hloc, -⟩ := hbody.exists_of_mem hf
    exact .inl hloc

/-! ## Encodings -/

/-- `get_encoding` gives an encoding Core API supports over HTTP. -/
theorem getEncodingLoop_eq_some {mediaTypes : List (Option String)} {e : String}
    (h : getEncodingLoop mediaTypes = some e) :
    e ∈ supportedMediaTypes ∨ e = "application/octet-stream" := by
  induction mediaTypes with
  | nil => cases h
  | cons m ms ih =>
    cases m with
    | none => exact ih h
    | some m =>
      dsimp only [getEncodingLoop] at h
      split_ifs at h with hm hany
      · cases h
        exact .inl hm
      · cases h
        exact .inr rfl
      · exact ih h

/-- `get_encoding` gives an encoding exactly when a parser's media type is supported or
is `*/*`. -/
theorem getEncodingLoop_isSome_iff {mediaTypes : List (Option String)} :
    (getEncodingLoop mediaTypes).isSome ↔
      ∃ t, some t ∈ mediaTypes ∧ (t ∈ supportedMediaTypes ∨ t = "*/*") := by
  induction mediaTypes with
  | nil => simp [getEncodingLoop]
  | cons m ms ih =>
    cases m with
    | none => simpa [getEncodingLoop] using ih
    | some m =>
      dsimp only [getEncodingLoop]
      split_ifs with hm hany
      · exact iff_of_true rfl ⟨m, List.mem_cons_self _ _, .inl hm⟩
      · exact iff_of_true rfl ⟨m, List.mem_cons_self _ _, .inr hany⟩
      · simp [ih, hm, hany]

/-! ## Links -/

/-- What `get_link` returns: the path, body, pagination and filter fields in that order,
and an encoding only when one of them is a `form` or `body` field. -/
theorem getLink_eq_ok {lib : Lib} {url path method : String} {view : View} {link : Link}
    (h : getLink lib url path method view = .ok link) :
    ∃ serializerFields, getSerializerFields method view = .ok serializerFields ∧
      link.fields = getPathFields lib path ++ serializerFields ++
        getPaginationFields path method view ++ getFilterFields path method view ∧
      link.encoding = if link.fields ≠ [] ∧ link.fields.any (fun f => f.location ∈ ["form", "body"])
        then getEncoding view else none := by
  obtain ⟨fields, hfields⟩ := getSerializerFields_ok method view
  unfold getLink at h
  simp only [hfields, bind_eq_ok, pure, Except.pure, Except.ok.injEq] at h
  obtain ⟨_, rfl, _, -, rfl⟩ := h
  exact ⟨fields, hfields, rfl, rfl⟩

/-- `get_link` raises only the `TypeError` of `get_description`. -/
theorem getLink_raisesOnly (lib : Lib) (url path method : String) (view : View) :
    RaisesOnly [.typeError] (getLink lib url path method view) := by
  obtain ⟨fields, h⟩ := getSerializerFields_ok method view
  exact RaisesOnly.bind (by simp [h]) fun _ _ =>
    RaisesOnly.bind (getDescription_raisesOnly lib method view) fun _ _ => trivial

/-- The `path` fields of a link are the template variables of its path, in the order
`uritemplate.variables` gives them, each required, followed by the `path` fields its
paginator and filter backends declare: no body field is a `path` field. -/
theorem getLink_pathFields (lib : Lib) (url path method : String) (view : View) (link : Link)
    (h : getLink lib url path method view = .ok link) :
    link.fields.filter (·.location = "path") =
      (lib.uriVariables path).map (fun v => { name := v, location := "path", required := true }) ++
        (getPaginationFields path method view ++ getFilterFields path method view).filter
          (·.location = "path") := by
  obtain ⟨fields, hfields, hlink, -⟩ := getLink_eq_ok h
  rw [hlink]
  have hbody : fields.filter (·.location = "path") = [] :=
    List.filter_eq_nil_iff.mpr fun f hf => by
      rcases location_of_mem_getSerializerFields hfields hf with h | h <;> simp [h]
  simp [List.filter_append, hbody, getPathFields, List.filter_map, Function.comp_def]

/-- `GET` on `/users/{pk}/` with `leadView` gives a link whose one field is the required
`path` field `pk`. -/
theorem getLink_pathFields_leadView :
    let link : Link :=
      { url := "/users/{pk}/", action := "get", encoding := none,
        fields := [{ name := "pk", location := "path", required := true }],
        description := "Return the users.Ordered by name." }
    getLink exampleLib "" "/users/{pk}/" "GET" leadView = .ok link ∧
      link.fields.filter (·.location = "path") =
        (exampleLib.uriVariables "/users/{pk}/").map
            (fun v => { name := v, location := "path", required := true }) ++
          (getPaginationFields "/users/{pk}/" "GET" leadView ++
            getFilterFields "/users/{pk}/" "GET" leadView).filter (·.location = "path") :=
  have h : getLink exampleLib "" "/users/{pk}/" "GET" leadView =
      .ok { url := "/users/{pk}/", action := "get", encoding := none,
            fields := [{ name := "pk", location := "path", required := true }],
            description := "Return the users.Ordered by name." } :=
    rfl
  ⟨h, getLink_pathFields exampleLib "" "/users/{pk}/" "GET" leadView _ h⟩

/-- A link's encoding is one Core API supports over HTTP, and it has one exactly when
one of its fields is a `form` or `body` field and one of its view's parsers accepts a
supported media type or `*/*`. -/
theorem getLink_encoding (lib : Lib) (url path method : String) (view : View) (link : Link)
    (h : getLink lib url path method view = .ok link) :
    (∀ e, link.encoding = some e → e ∈ supportedMediaTypes ∨ e = "application/octet-stream") ∧
      (link.encoding.isSome ↔ (∃ f ∈ link.fields, f.location ∈ ["form", "body"]) ∧
        ∃ t, some t ∈ view.parserMediaTypes ∧ (t ∈ supportedMediaTypes ∨ t = "*/*")) := by
  obtain ⟨-, -, -, hencoding⟩ := getLink_eq_ok h
  have hform : (link.fields ≠ [] ∧ link.fields.any (fun f => f.location ∈ ["form", "body"])) ↔
      ∃ f ∈ link.fields, f.location ∈ ["form", "body"] := by
    rw [List.any_eq_true]
    exact ⟨fun ⟨_, f, hf, hl⟩ => ⟨f, hf, of_decide_eq_true hl⟩,
      fun ⟨f, hf, hl⟩ => ⟨List.ne_nil_of_mem hf, f, hf, decide_eq_true hl⟩⟩
  rw [hencoding, ← hform, ← getEncodingLoop_isSome_iff]
  split_ifs with hf
  · exact ⟨fun _ => getEncodingLoop_eq_some, fun h' => ⟨hf, h'⟩, fun h' => h'.2⟩
  · exact ⟨fun _ => nofun, nofun, fun h' => absurd h'.1 hf⟩

/-- `POST` to `emailView`, whose first parser is `JSONParser`, gives a link with the
`form` field `user.email` and the encoding `application/json`. -/
theorem getLink_encoding_email :
    let link : Link :=
      { url := "/users/", action := "post", encoding := some "application/json",
        fields := [{ name := "user.email", required := true, location := "form", type := "string" }],
        description := "" }
    getLink exampleLib "" "/users/" "POST" emailView = .ok link ∧
      (∀ e, link.encoding = some e → e ∈ supportedMediaTypes ∨ e = "application/octet-stream") ∧
      (link.encoding.isSome ↔ (∃ f ∈ link.fields, f.location ∈ ["form", "body"]) ∧
        ∃ t, some t ∈ emailView.parserMediaTypes ∧ (t ∈ supportedMediaTypes ∨ t = "*/*")) :=
  have h : getLink exampleLib "" "/users/" "POST" emailView =
      .ok { url := "/users/", action := "post", encoding := some "application/json",
            fields := [{ name := "user.email", required := true, location := "form", type := "string" }],
            description := "" } :=
    rfl
  ⟨h, getLink_encoding exampleLib "" "/users/" "POST" emailView _ h⟩

end RestSchemas
