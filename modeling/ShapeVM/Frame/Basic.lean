import ShapeVM.Frame.ArgumentsObject

/-!
Frames. A frame holds the bindings of one call. Parameters that got an argument live in the argument
list, the other parameters and the locals in slots of the frame; the arguments object is built when
first asked for. Keys that are not bindings are properties of the frame.
-/
namespace ShapeVM

/-- A constant slot never changes again. -/
inductive LocalSlot where
  | var (value : Value)
  | const (value : Value)
  deriving DecidableEq

namespace LocalSlot

def value : LocalSlot → Value
  | var v => v
  | const v => v

def isConst : LocalSlot → Bool
  | var _ => false
  | const _ => true

def assign (value : Value) : LocalSlot → LocalSlot
  | var _ => var value
  | const v => const v

def freeze (value : Value) : LocalSlot → LocalSlot
  | var _ => const value
  | const v => const v

end LocalSlot

structure Frame where
  id : FrameId
  function : FunctionRef
  table : TableId
  objectConstructor : Value
  args : ArgumentList
  /-- The positions from here to the binding count are slots of the frame. -/
  localsStart : UInt32
  bindingCount : UInt32
  locals : Cells LocalSlot
  arguments : Option ArgumentsState := none
  /-- What a program has put in the place of the arguments object. -/
  argumentsBinding : Option Value := none
  properties : PropertyStore
  parent : Option FrameId := none
  deriving DecidableEq

namespace Frame

def ofCall (id : FrameId) (table : TableId) (function : FunctionRef) (args : Array Value)
    (objectConstructor : Value) : Frame :=
  let bindingCount := function.code.bindingCount
  let localsStart := min args.size.toUInt32 function.code.paramCount
  { id, function, table, objectConstructor, localsStart, bindingCount
    args := .ofArray args
    locals := { initial := Array.replicate (bindingCount.toNat - localsStart.toNat) (.var .undefined) }
    properties := .empty table }

/-! ## Bindings by position -/

/-- What reading the place of the arguments object gives. -/
def argumentsValue (f : Frame) : Value :=
  f.argumentsBinding.getD (.object (.arguments f.id))

def hasCopiedArguments (f : Frame) : Bool := !f.args.isShared

def slotIndex (f : Frame) (i : UInt32) : Nat := (i - f.localsStart).toNat

/-- Positions without a binding read as undefined. -/
def get (f : Frame) (i : UInt32) : Checked Value :=
  if i < f.localsStart then return (f.args.get? i.toNat).getD .undefined
  else if i < f.bindingCount then return (← f.locals.read (f.slotIndex i)).value
  else if i = argumentsIndex then return f.argumentsValue
  else return .undefined

/-- Changes the slot at a position between the first local and the end of the bindings. -/
def updateSlot (f : Frame) (i : UInt32) (change : LocalSlot → LocalSlot) : Checked Frame := do
  let slot ← f.locals.read (f.slotIndex i)
  let locals ← f.locals.write (f.slotIndex i) (change slot)
  return { f with locals := locals }

/-- Writes to constants and to positions without a binding are ignored. -/
def set (f : Frame) (i : UInt32) (value : Value) : Checked Frame :=
  if i < f.localsStart then return { f with args := (f.args.set? i.toNat value).getD f.args }
  else if i < f.bindingCount then f.updateSlot i (.assign value)
  else if i = argumentsIndex then return { f with argumentsBinding := some value }
  else return f

/-- Gives a slot its final value. Only slots of the frame can be constant, and only once. -/
def setConst (f : Frame) (i : UInt32) (value : Value) : Checked Frame :=
  if f.localsStart ≤ i && i < f.bindingCount then f.updateSlot i (.freeze value) else return f

def isConst (f : Frame) (i : UInt32) : Checked Bool :=
  if f.localsStart ≤ i && i < f.bindingCount then
    return (← f.locals.read (f.slotIndex i)).isConst
  else return false

/-! ## The arguments object -/

/-- The frame with its arguments object built. -/
def withArguments (f : Frame) : Frame :=
  match f.arguments with
  | some _ => f
  | none =>
    { f with
      arguments := some {
        length := .int32 (Int32.ofNat f.args.size)
        callee := .function f.function
        objectConstructor := f.objectConstructor
        properties := .empty f.table } }

def argumentsObject? (f : Frame) : Option ArgumentsObject :=
  f.arguments.map fun state => { state with args := f.args }

def setArgumentsObject (f : Frame) (a : ArgumentsObject) : Frame :=
  { f with args := a.args, arguments := some a.toArgumentsState }

/-! ## Bindings and properties by key -/

def resolve? (f : Frame) (key : Key) : Option UInt32 := f.function.scope.resolve? key

def getByKey (f : Frame) (key : Key) : Checked (Option Value) :=
  match f.resolve? key with
  | some i => return some (← f.get i)
  | none => f.properties.get? key

def putByKey (f : Frame) (t : ShapeTable) (key : Key) (value : Value) :
    Checked (Frame × ShapeTable) :=
  match f.resolve? key with
  | some i => return (← f.set i value, t)
  | none => do
    let (properties, t) ← f.properties.insert t key value
    return ({ f with properties := properties }, t)

def hasKey (f : Frame) (key : Key) : Bool :=
  (f.resolve? key).isSome || f.properties.contains key

/-- A binding cannot be deleted. -/
def deleteKey (f : Frame) (key : Key) : Frame × Bool :=
  if (f.resolve? key).isSome then (f, false)
  else
    let (properties, deleted) := f.properties.erase key
    ({ f with properties := properties }, deleted)

def keys (f : Frame) : List Key := f.function.scope.keys ++ f.properties.keys

end Frame

end ShapeVM
