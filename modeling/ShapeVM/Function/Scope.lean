import Std.Data.ExtTreeMap
import ShapeVM.Key
import ShapeVM.Function.Basic

/-!
Scopes. The names that resolve in a frame of a function: its own parameters and locals, of which the
later hides the earlier, and `arguments` where the function declares no binding of that name. They are
kept in a map from keys to positions, and listed in the order of the positions.
-/
namespace ShapeVM

/-- The position that stands for the arguments object, beyond those of all bindings. -/
def argumentsIndex : UInt32 := 0xffffffff

/-- The positions from `first` up to `last`, without `last`. -/
def positionsBetween (first last : UInt32) : List UInt32 :=
  (List.range' first.toNat (last.toNat - first.toNat)).map Nat.toUInt32

/-- The keys of a map in the order of the positions that it has for them, in whatever order it gives out
its entries. -/
def keysByPosition (entries : List (Key × UInt32)) : List Key :=
  (entries.mergeSort fun a b => a.2 ≤ b.2).map (·.1)

namespace Function

/-- Enters the name at a position. A name that is there already is entered anew. -/
def enterAt (name? : UInt32 → Option String) (positions : Std.ExtTreeMap Key UInt32) (i : UInt32) :
    Std.ExtTreeMap Key UInt32 :=
  match name? i with
  | some name => positions.insert (.name name) i
  | none => positions

/-- Where each key resolves to, if the bindings have these names. The name `arguments` comes between the
parameters and the locals: it stands for the arguments object unless a parameter has that name, or a
local that is entered later. -/
def positionsBy (f : Function) (name? : UInt32 → Option String) : Std.ExtTreeMap Key UInt32 :=
  let params := (positionsBetween 0 f.paramCount).foldl (enterAt name?) ∅
  let params := params.insertIfNew (.name "arguments") argumentsIndex
  (positionsBetween f.paramCount f.bindingCount).foldl (enterAt name?) params

def positions (f : Function) : Std.ExtTreeMap Key UInt32 := f.positionsBy f.bindingName?

/-- The names by position, for many look-ups. -/
def nameArray (f : Function) : Array String := (f.paramNames ++ f.localNames).toArray

theorem bindingName?_eq_nameArray (f : Function) (i : UInt32) :
    f.bindingName? i = f.nameArray[i.toNat]? := by
  rw [bindingName?, nameArray, List.getElem?_toArray, List.getElem?_append]

theorem positions_eq_nameArray (f : Function) :
    f.positions = f.positionsBy fun i => f.nameArray[i.toNat]? :=
  congrArg f.positionsBy (funext f.bindingName?_eq_nameArray)

def resolve? (f : Function) (key : Key) : Option UInt32 := f.positions[key]?

/-- The keys that resolve, in the order of the positions to which they do. -/
def boundKeys (f : Function) : List Key := keysByPosition f.positions.toList

end Function

/-- The scope of a function, ready for look-ups. The positions are worked out by the first of them. -/
structure Scope (f : Function) where
  positions : Thunk (Std.ExtTreeMap Key UInt32) := Thunk.mk fun _ =>
    let names := f.nameArray
    f.positionsBy fun i => names[i.toNat]?
  positions_get : positions.get = f.positions := by exact (Function.positions_eq_nameArray _).symm

namespace Scope

variable {f : Function}

/-- All scopes of a function are the same. -/
instance : Subsingleton (Scope f) where
  allEq
    | ⟨p, hp⟩, ⟨q, hq⟩ => by
      obtain rfl : p = q := Thunk.ext (hp.trans hq.symm)
      rfl

instance : DecidableEq (Scope f) := fun s t => .isTrue (Subsingleton.elim s t)

def resolve? (s : Scope f) (key : Key) : Option UInt32 := s.positions.get[key]?

theorem resolve?_eq (s : Scope f) (key : Key) : s.resolve? key = f.resolve? key := by
  rw [resolve?, s.positions_get, Function.resolve?]

def keys (s : Scope f) : List Key := keysByPosition s.positions.get.toList

theorem keys_eq (s : Scope f) : s.keys = f.boundKeys := by
  rw [keys, s.positions_get, Function.boundKeys]

end Scope

end ShapeVM
