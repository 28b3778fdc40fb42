import ShapeVM.Binary64.Shortest
import ShapeVM.Heap.Objects
import ShapeVM.Heap.Caches
import ShapeVM.Text.Quoted
import ShapeVM.Text.Layout

/-!
Inspection text: for each kind of thing one line that shows its fields. References are shown by kind
or by name and not followed, so the text of a value needs no heap.
-/
namespace ShapeVM

open Text

def Key.inspect : Key → String
  | name s => wrapped "String" (quote s)
  | index i => wrapped "Index" (natural i.toNat)

/-- A key without the mark of its kind. -/
def Key.display : Key → String
  | name s => s
  | index i => natural i.toNat

def Value.inspect : Value → String
  | undefined => "undefined"
  | null => "null"
  | boolean b => Text.boolean b
  | int32 n => integer n.toInt
  | number x => x.toPlainString
  | string s => quote s
  | object o => "[object " ++ o.className ++ "]"
  | function f => "[function " ++ f.code.displayName ++ "]"

def inspectValues (values : Array Value) : String :=
  list (values.toList.map Value.inspect)

/-! ## Functions -/

def FunctionFlags.inspect (flags : FunctionFlags) : String :=
  record "FunctionFlags" [("uses_eval", boolean flags.usesEval)]

def Function.inspect (f : Function) : String :=
  let names (l : List String) := list (l.map quote)
  record "Function" [
    ("name", option (f.name.map quote)),
    ("flags", f.flags.inspect),
    ("param_names", names f.paramNames),
    ("local_names", names f.localNames),
    ("property_sites", names f.propertySites)]

/-! ## Refusals -/

def Refusal.inspect : Refusal → String
  | classLimit reason => wrapped "ClassLimit" (quote reason.message)
  | codeLimit reason => wrapped "Bytecode" (wrapped "ClassLimit" (quote reason.message))
  | unoptimizable reason => wrapped "Unoptimizable" (quote reason.message)

/-! ## Shapes and objects -/

def Shape.inspect (s : Shape) : String :=
  record "Shape" [
    ("id", natural s.id),
    ("key", option (s.key?.map Key.inspect)),
    ("offset", option (s.lastOffset?.map fun offset => natural offset.toNat)),
    ("property_count", natural s.size)]

def ShapeTable.inspect (t : ShapeTable) : String :=
  record "ShapeTable" [
    ("shape_count", natural t.shapeCount),
    ("transition_count", natural t.transitionCount)]

def PropertyStore.inspect (s : PropertyStore) : String :=
  record "JsObject" [
    ("properties", natural s.size),
    ("dictionary_mode", boolean s.isDictionary)]

def Lookup.inspect (l : Lookup) : String :=
  record "PropertyLookup" [
    ("shape", option (l.shape.map Shape.inspect)),
    ("offset", option (l.offset.map fun offset => natural offset.toNat)),
    ("value", option (l.value.map Value.inspect))]

/-! ## Caches -/

def inspectBinding : Option Location → String
  | none => "Uninitialized"
  | some location =>
    record "Monomorphic" [
      ("shape", location.shape.inspect),
      ("offset", natural location.offset.toNat)]

def Cache.inspect (c : Cache) : String :=
  record "InlineCache" [
    ("key", c.key.inspect),
    ("bound", boolean c.isBound),
    ("hits", natural c.hits.toNat),
    ("misses", natural c.misses.toNat)]

def SiteCaches.inspect (v : SiteCaches) : String :=
  record "FeedbackVector" [("caches", list (v.caches.toArray.toList.map Cache.inspect))]

/-! ## Frames -/

def ArgumentList.inspect (a : ArgumentList) : String :=
  record "ArgumentSlots" [("len", natural a.size), ("shared", boolean a.isShared)]

def ArgumentsObject.inspect (a : ArgumentsObject) : String :=
  record "ArgumentsObject" [
    ("args", a.args.inspect),
    ("properties", a.properties.inspect)]

def PropertyDescriptor.inspect (d : PropertyDescriptor) : String :=
  record "PropertyDescriptor" [
    ("value", d.value.inspect),
    ("writable", boolean d.writable),
    ("enumerable", boolean d.enumerable),
    ("configurable", boolean d.configurable)]

def Frame.inspect (f : Frame) : String :=
  record "ActivationRecord" [
    ("function", quote f.function.code.displayName),
    ("locals_start", natural f.localsStart.toNat),
    ("param_and_var_count", natural f.bindingCount.toNat),
    ("args", f.args.inspect)]

/-! ## Realms and references -/

def Limits.inspect (l : Limits) : String :=
  record "LayoutConfig" [
    ("max_shapes", natural l.maxShapes),
    ("max_shape_properties", natural l.maxShapeProperties),
    ("max_bindings", natural l.maxBindings.toNat)]

namespace Heap

def inspectRealm (h : Heap) (r : Realm) : Checked String := do
  return record "Realm" [("shapes", (← h.table r.table).inspect), ("config", r.limits.inspect)]

/-- An object reference shows the object that it refers to. -/
def inspectObject (h : Heap) : ObjectRef → Checked String
  | .ordinary id => do return wrapped "Ordinary" (← h.object id).inspect
  | .arguments id => do return wrapped "Arguments" (← h.argumentsObject id).inspect
  | .activation id => do return wrapped "Activation" (← h.frame id).inspect

end Heap

end ShapeVM
