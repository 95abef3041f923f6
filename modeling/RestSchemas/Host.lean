import RestSchemas.Py

/-!
# The host framework's objects

`schemas.py` walks Django's URL conf and reads REST framework views, serializers and
`coreapi` documents. This file models each of them by the attributes the module reads
and nothing else: a view class is the record of what `create_view` copies onto an
instance and what the generator then asks of it, a URL conf is a tree of
`RegexURLPattern` leaves and `RegexURLResolver` nodes.

The hooks of the view layer (`get_serializer()`, `get_view_description()`,
`get_fields(view)`, `allowed_methods`) are modelled by what they return;
`check_permissions(request)` by whether it returns or raises an `APIException`.
The library functions the module calls and does not define are the fields of `Lib`;
`exampleLib` computes them as Django and `uritemplate` do on simple URL confs, for the
example runs.
-/

namespace RestSchemas

/-! ## coreapi -/

/-- `coreapi.Field`, with its defaults. -/
structure Field where
  name : String
  required : Bool := false
  location : String := ""
  type : String := ""
  description : String := ""
deriving DecidableEq, Repr

/-- `coreapi.Link`. -/
structure Link where
  url : String
  action : String
  encoding : Option String
  fields : List Field
  description : String
deriving DecidableEq, Repr

/-! ## Serializers -/

/-- The serializer classes `schemas.py` names, and any other class by its name. -/
inductive FieldClass
  | field
  | integerField
  | floatField
  | decimalField
  | booleanField
  | fileField
  | multipleChoiceField
  | manyRelatedField
  | serializer
  | listSerializer
  | hiddenField
  | other (name : String)
deriving DecidableEq, Repr

/-- A declared serializer field: the MRO of its class, its `source`, and the flags
`get_serializer_fields` reads. Every serializer field is a `Field`. -/
structure SerializerField where
  mro : List FieldClass
  source : String
  readOnly : Bool
  required : Bool
  helpText : Option String
  isField : FieldClass.field ∈ mro

/-- What `view.get_serializer()` returns: an object with the MRO of its class and, for a
`Serializer`, the `OrderedDict` `serializer.fields` from field name to field. -/
structure Serializer where
  mro : List FieldClass
  fields : List (String × SerializerField)

/-- An item of the list a pagination or filter backend's `get_fields(view)` returns: a
`coreapi.Field`, or a plain name. -/
inductive QueryItem
  | field (f : Field)
  | name (n : String)

/-! ## Views -/

/-- A request, as `clone_request(request, method)` hands it to the view: its method, and
the user the permission hook may look at. -/
structure Request where
  method : String
  user : Option String

/-- The `action` attribute of a view instance: missing, `None`, or an action name. -/
inductive ViewAction
  | unset
  | none
  | named (a : String)
deriving DecidableEq, Repr

/-- A view class, `callback.cls`: whether it derives from `APIView`, and the attributes
and hooks schema generation reads from its instances. `get_serializer()`,
`pagination_class().get_fields(view)` (`None` without a pagination class) and each filter
backend's `get_fields(view)` run on the instance `create_view` returns, and may read its
`action` and its `request`: they are functions of the two. `check_permissions(request)`
raises an `APIException` (`PermissionDenied`, `NotAuthenticated`) when a permission class
denies the request, and `checkPermissions` is `false` exactly then; a permission class
that raises anything else, which `should_include_view` does not catch, is outside the
model. -/
structure ViewClass where
  isApiView : Bool
  allowedMethods : List String
  action : ViewAction := .unset
  excludeFromSchema : Bool := false
  docstring : String → Option String := fun _ => Option.none
  viewDescription : String := ""
  serializer : ViewAction → Option Request → Option Serializer := fun _ _ => Option.none
  paginationFields : ViewAction → Option Request → Option (List QueryItem) :=
    fun _ _ => Option.none
  filterBackends : ViewAction → Option Request → List (List QueryItem) := fun _ _ => []
  parserMediaTypes : List (Option String) := []
  checkPermissions : Request → Bool := fun _ => true

/-- An item of `callback.initkwargs`, which `create_view` copies onto the instance with
`setattr`. The attributes schema generation reads are told apart, each by what the hook
that reads it returns; any other has no effect on the model. -/
inductive InitKwarg
  | excludeFromSchema (b : Bool)
  | action (a : String)
  | serializerClass (s : ViewAction → Option Request → Option Serializer)
  | paginationClass (fields : ViewAction → Option Request → Option (List QueryItem))
  | filterBackends (backends : ViewAction → Option Request → List (List QueryItem))
  | parserClasses (mediaTypes : List (Option String))
  | permissionClasses (check : Request → Bool)
  | other (name : String)

/-- A view callback as the URL conf holds it: `callback.cls` (`None` when missing),
`callback.actions` (set on viewset callbacks: HTTP method to action name), and
`callback.initkwargs`. -/
structure Callback where
  cls : Option ViewClass
  actions : Option (List (String × String)) := Option.none
  initkwargs : List InitKwarg := []
  /-- `callback.actions` is a `dict`: no method twice. -/
  actions_nodup : ∀ a ∈ actions, (a.map Prod.fst).Nodup := by decide

/-- A view instance as `create_view` leaves it, with what its hooks return. -/
structure View where
  cls : ViewClass
  action : ViewAction
  excludeFromSchema : Bool
  serializer : Option Serializer
  paginationFields : Option (List QueryItem)
  filterBackends : List (List QueryItem)
  parserMediaTypes : List (Option String)
  request : Option Request
  actionMap : Option (List (String × String))
  checkPermissions : Request → Bool

/-- `setattr(view, attr, val)` for one item of `initkwargs`, on the attributes the
instance reads: those of its class until one is set on it. -/
def InitKwarg.apply (attrs : ViewClass) : InitKwarg → ViewClass
  | .excludeFromSchema b => { attrs with excludeFromSchema := b }
  | .action a => { attrs with action := .named a }
  | .serializerClass s => { attrs with serializer := s }
  | .paginationClass fields => { attrs with paginationFields := fields }
  | .filterBackends backends => { attrs with filterBackends := backends }
  | .parserClasses mediaTypes => { attrs with parserMediaTypes := mediaTypes }
  | .permissionClasses check => { attrs with checkPermissions := check }
  | .other _ => attrs

/-! ## The URL conf -/

/-- A URL conf entry: a `RegexURLPattern` with its regex and callback, or a
`RegexURLResolver` with its regex and nested `url_patterns`. -/
inductive UrlPattern
  | pattern (regex : String) (callback : Callback)
  | resolver (regex : String) (urlPatterns : List UrlPattern)

/-- An endpoint `(path, method, callback)`. -/
structure Endpoint where
  path : String
  method : String
  callback : Callback

/-- The library functions the module calls: Django's `simplify_regex`, `urljoin`,
`uritemplate.variables` (a set, enumerated in some order) and REST framework's
`formatting.dedent`. -/
structure Lib where
  simplifyRegex : String → String
  urljoin : String → String → String
  uriVariables : String → List String
  dedent : String → String

/-! ## The library on simple URL confs -/

/-- `str.replace('//', '/')`: each `//` from the left becomes `/`. -/
def collapseSlashes : List Char → List Char
  | '/' :: '/' :: cs => '/' :: collapseSlashes cs
  | c :: cs => c :: collapseSlashes cs
  | [] => []

/-- Django's `simplify_regex` on a pattern without groups, as Django up to 1.10 computes
it: it drops `^`, `$` and `?`, turns `//` into `/`, drops backslashes, and puts a `/` in
front. Django 1.11 keeps the backslashes and the `//`. -/
def simplifyRegex (pattern : String) : String :=
  let cs := collapseSlashes (pattern.data.filter fun c => c ∉ ['^', '$', '?'])
  let cs := cs.filter (· ≠ '\\')
  if cs.head? = some '/' then ⟨cs⟩ else ⟨'/' :: cs⟩

/-- The names between braces in `cs`, the one being read, reversed, in `name`. -/
def templateNames : List Char → Option (List Char) → List String
  | [], _ => []
  | '\x7b' :: cs, none => templateNames cs (some [])
  | '\x7d' :: cs, some name => ⟨name.reverse⟩ :: templateNames cs none
  | c :: cs, some name => templateNames cs (some (c :: name))
  | _ :: cs, none => templateNames cs none

/-- The library functions on URL confs whose patterns have no groups and whose views
have no docstrings: `simplify_regex` as Django up to 1.10 computes it there, `urljoin` of
a base that is empty or ends in `/` with a relative path, and `uritemplate.variables` on a
template whose expressions are plain names, each named once. -/
def exampleLib : Lib where
  simplifyRegex := simplifyRegex
  urljoin := fun base path => base ++ path
  uriVariables := fun path => templateNames path.data none
  dedent := id

end RestSchemas
