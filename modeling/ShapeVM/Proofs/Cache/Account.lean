import ShapeVM.Proofs.Cache.Uses
import ShapeVM.Proofs.Heap.Evaluation

/-!
What caches account for. The state and the counts of a cache are determined by the accesses through it
since it was made or last reset, and of these by what a look-up of its key tells: of which shape the
object was before, and where it had the key afterwards. An access is a hit exactly if its object has,
just before, the very shape in which the access before it left the key. The counts are words, so they
are the numbers of hits and of misses up to a multiple of `2 ^ 64`, and exactly below that.
-/
namespace ShapeVM

/-- An access: the shape that its object had before, and where the object kept the key afterwards. -/
structure Visit where
  before : Option Shape
  after : Option Location
  deriving DecidableEq

namespace Visit

/-- What the newest of the visits left. -/
def latest (visits : List Visit) : Option Location := visits.head?.bind (·.after)

def hit (older : List Visit) (v : Visit) : Bool :=
  (latest older).any fun place => v.before.any (·.same place.shape)

def hits : List Visit → Nat
  | [] => 0
  | v :: older => hits older + if v.hit older then 1 else 0

def misses : List Visit → Nat
  | [] => 0
  | v :: older => misses older + if v.hit older then 0 else 1

theorem hits_add_misses (visits : List Visit) : hits visits + misses visits = visits.length := by
  induction visits with
  | nil => rfl
  | cons v older ih =>
    rw [hits, misses, List.length_cons, ← ih]
    split
    · omega
    · omega

end Visit

namespace Cache

/-- The cache is what the visits since it was made or last reset make of it. -/
structure Accounts (c : Cache) (visits : List Visit) : Prop where
  binding : c.binding = Visit.latest visits
  hits : c.hits = .ofNat (Visit.hits visits)
  misses : c.misses = .ofNat (Visit.misses visits)

namespace Accounts

variable {c : Cache} {visits : List Visit}

theorem serves_eq_hit (accounts : c.Accounts visits) (s : PropertyStore) (place? : Option Location) :
    c.serves s = Visit.hit visits ⟨s.shape?, place?⟩ := by
  rw [serves, accounts.binding]
  rfl

theorem accessed (accounts : c.Accounts visits) (s : PropertyStore) (place? : Option Location) :
    (c.accessed (c.serves s) place?).Accounts (⟨s.shape?, place?⟩ :: visits) := by
  have isHit := accounts.serves_eq_hit s place?
  refine ⟨c.binding_accessed .., ?_, ?_⟩
  · rw [Visit.hits, UInt64.ofNat_add, ← accounts.hits, ← isHit]
    cases c.serves s with
    | true => rfl
    | false => exact (UInt64.add_zero _).symm
  · rw [Visit.misses, UInt64.ofNat_add, ← accounts.misses, ← isHit]
    cases c.serves s with
    | true => exact (UInt64.add_zero _).symm
    | false => rfl

theorem total (accounts : c.Accounts visits) : c.hits + c.misses = .ofNat visits.length := by
  rw [accounts.hits, accounts.misses, ← UInt64.ofNat_add, Visit.hits_add_misses]

/-- Counts that have not wrapped yet. -/
theorem toNat_eq (accounts : c.Accounts visits) (few : visits.length < UInt64.size) :
    c.hits.toNat = Visit.hits visits ∧ c.misses.toNat = Visit.misses visits := by
  have sum := Visit.hits_add_misses visits
  rw [accounts.hits, accounts.misses]
  exact ⟨UInt64.toNat_ofNat_of_lt' (by omega), UInt64.toNat_ofNat_of_lt' (by omega)⟩

end Accounts

end Cache

namespace Heap

variable {h h' : Heap} {op : Operation} {ops older : List Operation} {ref : CacheRef} {c : Cache}
  {target : ObjectId} {key : Key}

/-! ## Histories -/

def shapeOf (h : Heap) (o : ObjectId) : Option Shape :=
  match h.object o with
  | .ok s => s.shape?
  | .error _ => none

/-- The location that a look-up of the key in the object reports. -/
def locate (h : Heap) (o : ObjectId) (key : Key) : Option Location :=
  match h.object o >>= (·.lookup key) with
  | .ok found => found.location?
  | .error _ => none

/-- The accesses through a cache for a key, since it was made or last reset, the newest first. -/
def visits (ref : CacheRef) (key : Key) : List Operation → List Visit
  | [] => []
  | op :: older =>
    match op.use? ref with
    | some (.access target) =>
      ⟨(afterAll {} older).shapeOf target, (afterAll {} (op :: older)).locate target key⟩ ::
        visits ref key older
    | some .reset => []
    | none => visits ref key older

theorem visits_of_unused (unused : op.use? ref = none) :
    visits ref key (op :: older) = visits ref key older := by
  rw [visits, unused]

theorem visits_of_reset (use : op.use? ref = some .reset) : visits ref key (op :: older) = [] := by
  rw [visits, use]

theorem visits_of_access {s s' : PropertyStore} {found : Lookup} (runs : Runs {} older h)
    (step : h.Step op h') (use : op.use? ref = some (.access target)) (isObject : h.object target = .ok s)
    (isObject' : h'.object target = .ok s') (searched : s'.lookup key = .ok found) :
    visits ref key (op :: older) = ⟨s.shape?, found.location?⟩ :: visits ref key older := by
  rw [visits, use, runs.afterAll_eq, (Runs.step runs step).afterAll_eq]
  simp [shapeOf, locate, isObject, isObject', searched]

/-! ## Accounts along a run -/

/-- A cache accounts for its visits, and one that is not made yet has none. -/
theorem Runs.accounts (runs : Runs {} ops h) (ref : CacheRef) :
    (∀ {c}, h.cache? ref = some c → c.Accounts (visits ref c.key ops)) ∧
      (h.cache? ref = none → ∀ key, visits ref key ops = []) := by
  induction runs with
  | start =>
    refine ⟨fun {c} found => ?_, fun _ _ => rfl⟩
    cases ref with
    | single id => simp [cache?] at found
    | site owner i => simp [cache?] at found
  | @step older h op h' runs step ih =>
    obtain ⟨accounts, unmade⟩ := ih
    cases step.effect.caches (runs.preserved wellFormed_empty).wellFormed with
    | kept unused same =>
      refine ⟨fun {c} found => ?_, fun absent key => ?_⟩
      · rw [visits_of_unused (unused ref)]
        exact accounts (same ref ▸ found)
      · rw [visits_of_unused (unused ref)]
        exact unmade (same ref ▸ absent) key
    | made unused kept new =>
      refine ⟨fun {c} found => ?_, fun absent key => ?_⟩
      · rw [visits_of_unused (unused ref)]
        cases old : h.cache? ref with
        | some c₀ =>
          obtain rfl := Option.some.inj ((kept old).symm.trans found)
          exact accounts old
        | none =>
          rcases new found with ⟨key, rfl⟩ | found
          · rw [unmade old]
            exact ⟨rfl, rfl, rfl⟩
          · cases old.symm.trans found
      · rw [visits_of_unused (unused ref)]
        apply unmade
        cases old : h.cache? ref with
        | some c₀ => cases absent.symm.trans (kept old)
        | none => rfl
    | @used ref₀ use c₀ c' uses isCache used result =>
      by_cases same : ref = ref₀
      · subst same
        have use := (uses ref).trans (if_pos rfl)
        have isCache' := (result ref).trans (if_pos rfl)
        refine ⟨fun {c} found => ?_, fun absent => ?_⟩
        · obtain rfl := Option.some.inj (isCache'.symm.trans found)
          cases used with
          | @access target s s' found isObject isObject' searched =>
            rw [c₀.key_accessed, visits_of_access runs step use isObject isObject' searched]
            exact (accounts isCache).accessed s _
          | reset =>
            rw [visits_of_reset use]
            exact ⟨rfl, rfl, rfl⟩
        · cases isCache'.symm.trans absent
      · have unused := (uses ref).trans (if_neg (Ne.symm same))
        have kept := (result ref).trans (if_neg same)
        refine ⟨fun {c} found => ?_, fun absent key => ?_⟩
        · rw [visits_of_unused unused]
          exact accounts (kept ▸ found)
        · rw [visits_of_unused unused]
          exact unmade (kept ▸ absent) key

/-! ## Sites -/

/-- The accesses through the caches of a function's sites that were misses. -/
def siteMisses (owner : SiteCachesId) (v : SiteCaches) (ops : List Operation) : Nat :=
  (v.caches.toArray.toList.mapIdx fun i c =>
    Visit.misses (visits (.site owner i) c.key ops)).foldl (· + ·) 0

/-- What the caches of a function's sites account for together. -/
theorem Runs.misses_eq_total {owner : SiteCachesId} {v : SiteCaches} (runs : Runs {} ops h)
    (isOwner : h.siteCaches[owner.index]? = some v) : v.misses = .ofNat (siteMisses owner v ops) := by
  have each : v.caches.toArray.toList.map (·.misses) = (v.caches.toArray.toList.mapIdx fun i c =>
      Visit.misses (visits (.site owner i) c.key ops)).map UInt64.ofNat := by
    apply List.ext_getElem?
    intro i
    rw [List.getElem?_map, List.getElem?_map, List.getElem?_mapIdx, Array.getElem?_toList]
    cases found : v.caches.toArray[i]? with
    | none => rfl
    | some c =>
      have isCache : h.cache? (.site owner i) = some c := by
        rw [cache?, isOwner]
        exact (Cells.getElem?_toArray ..).symm.trans found
      exact congrArg some ((runs.accounts _).1 isCache).misses
  rw [SiteCaches.misses, ← Array.foldl_toList, ← List.foldl_map, each, List.foldl_map, siteMisses]
  exact List.foldl_hom UInt64.ofNat fun n m => (UInt64.ofNat_add n m).symm

/-! ## Every cache of a run -/

/-- What a cache accounts for, and what the next access through it does. -/
structure KeepsAccount (h : Heap) (ops : List Operation) (ref : CacheRef) (c : Cache) : Prop where
  account : c.Accounts (visits ref c.key ops)
  total : c.hits + c.misses = .ofNat (visits ref c.key ops).length
  /-- Before the counts wrap. -/
  exact : (visits ref c.key ops).length < UInt64.size →
    c.hits.toNat = Visit.hits (visits ref c.key ops) ∧
      c.misses.toNat = Visit.misses (visits ref c.key ops) ∧
      c.hits.toNat + c.misses.toNat = (visits ref c.key ops).length
  access : ∀ {op target s}, op.use? ref = some (.access target) → h.object target = .ok s →
    ∃ h' s' found, h.Step op h' ∧ h'.object target = .ok s' ∧ s'.lookup c.key = .ok found ∧
      h'.cache? ref = some (c.accessed
        (Visit.hit (visits ref c.key ops) ⟨s.shape?, found.location?⟩) found.location?)
  elsewhere : ∀ {op use h' ref'}, op.use? ref = some use → h.Step op h' → ref' ≠ ref →
    h'.cache? ref' = h.cache? ref'

theorem accesses_are_accounted (runs : Runs {} ops h) :
    (∀ {ref c}, h.cache? ref = some c → h.KeepsAccount ops ref c) ∧
      ∀ {owner : SiteCachesId} {v}, h.siteCaches[owner.index]? = some v →
        v.misses = .ofNat (siteMisses owner v ops) ∧
          (siteMisses owner v ops < UInt64.size → v.misses.toNat = siteMisses owner v ops) := by
  have w := (runs.preserved wellFormed_empty).wellFormed
  refine ⟨fun {ref c} isCache => ?_, fun {owner v} isOwner => ?_⟩
  · have accounts := (runs.accounts ref).1 isCache
    refine ⟨accounts, accounts.total, fun few => ?_, fun {op target s} use isObject => ?_,
      fun {op use h' ref'} uses step apart => ?_⟩
    · obtain ⟨hits, misses⟩ := accounts.toNat_eq few
      rw [hits, misses]
      exact ⟨rfl, rfl, Visit.hits_add_misses _⟩
    · obtain ⟨h', step⟩ := w.access use isCache isObject
      cases step.effect.caches w with
      | kept unused _ => cases (unused ref).symm.trans use
      | made unused _ _ => cases (unused ref).symm.trans use
      | @used ref₀ use₀ c₀ c' uses isCache₀ used result =>
        rw [uses, Option.ite_none_right_eq_some] at use
        obtain ⟨rfl, ⟨⟩⟩ := use
        obtain rfl := Option.some.inj (isCache.symm.trans isCache₀)
        cases used with
        | @access _ s₀ s' found isObject₀ isObject' searched =>
          obtain rfl := Except.ok.inj (isObject.symm.trans isObject₀)
          refine ⟨h', s', found, step, isObject', searched, ?_⟩
          rw [result, if_pos rfl, accounts.serves_eq_hit s found.location?]
    · cases step.effect.caches w with
      | kept unused _ => cases (unused ref).symm.trans uses
      | made unused _ _ => cases (unused ref).symm.trans uses
      | @used ref₀ use₀ c₀ c' uses₀ _ _ result =>
        rw [uses₀, Option.ite_none_right_eq_some] at uses
        obtain ⟨rfl, _⟩ := uses
        rw [result, if_neg apart]
  · have total := runs.misses_eq_total isOwner
    exact ⟨total, fun few => by rw [total, UInt64.toNat_ofNat_of_lt' few]⟩

/-- Two sites of one name. The first misses, hits, and misses an object of another shape, to which the
second then writes. -/
theorem accesses_are_accounted_of_two_sites : ∃ ops h c v, Runs {} ops h ∧
    h.cache? (.site ⟨0⟩ 0) = some c ∧ c.hits = 1 ∧ c.misses = 2 ∧ h.siteCaches[0]? = some v ∧
    h.KeepsAccount ops (.site ⟨0⟩ 0) c ∧
    v.misses = .ofNat (siteMisses ⟨0⟩ v ops) ∧
    (siteMisses ⟨0⟩ v ops < UInt64.size → v.misses.toNat = siteMisses ⟨0⟩ v ops) := by
  obtain ⟨h, runs, ⟨c, isCache, hits, misses⟩, owner⟩ : ∃ h, Runs {} [
      .store (.site ⟨0⟩ 1) ⟨1⟩ .undefined, .fetch (.site ⟨0⟩ 0) ⟨1⟩, .fetch (.site ⟨0⟩ 0) ⟨0⟩,
      .fetch (.site ⟨0⟩ 0) ⟨0⟩, .makeSiteCaches { propertySites := ["x", "x"] },
      .put (.ordinary ⟨1⟩) (.name "x") .null, .put (.ordinary ⟨1⟩) (.index 3) .null,
      .put (.ordinary ⟨0⟩) (.name "x") .null, .makeObject ⟨0⟩, .makeObject ⟨0⟩, .makeTable {}] h ∧
      (∃ c, h.cache (.site ⟨0⟩ 0) = .ok c ∧ c.hits = 1 ∧ c.misses = 2) ∧
      h.siteCaches[0]?.isSome = true :=
    ⟨_, runs_afterAll (by decide +kernel), by decide +kernel, by decide +kernel⟩
  obtain ⟨v, isOwner⟩ := Option.isSome_iff_exists.1 owner
  have isCache := cache_eq_ok.1 isCache
  exact ⟨_, h, c, v, runs, isCache, hits, misses, isOwner, (accesses_are_accounted runs).1 isCache,
    (accesses_are_accounted runs).2 isOwner⟩

end Heap

end ShapeVM
