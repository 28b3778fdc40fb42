import ShapeVM.Proofs.Frame.View
import ShapeVM.Proofs.Heap.WellFormed

/-!
The view of an object in a heap: the answers to the reads, the tests and the listing of its keys
(`Shows`). An object has one view at most (`Shows.unique`). While offsets reach every slot it is the
view of the store, the arguments object or the frame that stands behind the reference.
-/
namespace ShapeVM.Heap

variable {h h' : Heap} {o : ObjectRef} {key : Key} {v : View} {id : FrameId} {f : Frame}

/-- A read can build an arguments object and has the heap answer as it then is. -/
structure Shows (h : Heap) (o : ObjectRef) (v : View) : Prop where
  get : ∀ key, ∃ h', h.get o key = .ok (v.get key, h')
  has : ∀ key, h.has o key = .ok (v.has key)
  keys : h.keys o = .ok v.keys

theorem get_eq_ok {value : Option Value} :
    (∃ h', h.get o key = .ok (value, h')) ↔ h.read o key = .ok value := by
  rw [Heap.get]
  constructor
  · rintro ⟨h', got⟩
    obtain ⟨found, read, answered⟩ := Checked.bind_eq_ok.1 got
    split at answered
    · cases answered
      exact read
    · cases answered
      exact read
  · intro read
    rw [read, Checked.ok_bind]
    split
    · exact ⟨_, rfl⟩
    · exact ⟨_, rfl⟩

theorem shows_of_read (get : ∀ key, h.read o key = .ok (v.get key))
    (has : ∀ key, h.has o key = .ok (v.has key)) (keys : h.keys o = .ok v.keys) : h.Shows o v :=
  ⟨fun key => get_eq_ok.2 (get key), has, keys⟩

namespace Shows

theorem read (shows : h.Shows o v) (key : Key) : h.read o key = .ok (v.get key) :=
  get_eq_ok.1 (shows.get key)

theorem unique {v' : View} (shows : h.Shows o v) (shows' : h.Shows o v') : v = v' := by
  obtain ⟨get, has, keys⟩ := v
  obtain ⟨get', has', keys'⟩ := v'
  have sameGet : get = get' := funext fun key =>
    Except.ok.inj ((shows.read key).symm.trans (shows'.read key))
  have sameHas : has = has' := funext fun key =>
    Except.ok.inj ((shows.has key).symm.trans (shows'.has key))
  have sameKeys : keys = keys' := Except.ok.inj (shows.keys.symm.trans shows'.keys)
  rw [sameGet, sameHas, sameKeys]

end Shows

/-! ## What stands behind a reference -/

theorem shows_ordinary {id : ObjectId} {s : PropertyStore} (isObject : h.object id = .ok s)
    (readable : s.Readable) : h.Shows (.ordinary id) s.view := by
  refine shows_of_read (fun key => ?_) (fun key => ?_) ?_
  · simp [Heap.read, isObject, readable.get?_eq]
  · simp [Heap.has, isObject, readable.contains_eq]
  · simp [Heap.keys, isObject, readable.keys_eq]

theorem shows_arguments {a : ArgumentsObject} (isObject : h.argumentsObject id = .ok a)
    (w : a.WellFormed) (readable : a.properties.Readable) : h.Shows (.arguments id) a.view := by
  refine shows_of_read (fun key => ?_) (fun key => ?_) ?_
  · simp [Heap.read, isObject, a.get?_eq_view w readable]
  · simp [Heap.has, isObject, a.has_eq_view w readable]
  · simp [Heap.keys, isObject, ArgumentsObject.view]

theorem shows_activation (isFrame : h.frame id = .ok f) (w : f.WellFormed)
    (readable : f.properties.Readable) : h.Shows (.activation id) f.view := by
  refine shows_of_read (fun key => ?_) (fun key => ?_) ?_
  · simp [Heap.read, isFrame, f.getByKey_eq_view readable w]
  · simp [Heap.has, isFrame, f.hasKey_eq_view readable]
  · simp [Heap.keys, isFrame, f.keys_eq_view readable]

end ShapeVM.Heap
