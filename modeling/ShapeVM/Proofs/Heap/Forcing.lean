import ShapeVM.Proofs.Heap.Publication
import ShapeVM.Proofs.Heap.Evaluation

/-!
Forcing. A call that does nothing but build what a frame has not built yet can be made at any point of
a run. The run is answered as it was without it, and the heap that it ends in differs in what is built
alone. What is built is built once, from what the frame then holds.
-/
namespace ShapeVM

/-! ## Calls that force -/

/-- A request that changes nothing, or nothing but what is built. -/
def Request.IsRead : Request → Prop
  | .operation op => op.IsRead
  | _ => True

/-- Calls on a frame that build its arguments object or resolve its names. The last five are made on
the arguments object. -/
inductive Force where
  | arguments
  | argumentsValue
  | binding (i : UInt32)
  | get (key : Key)
  | has (key : Key)
  | keys
  | getArgument (key : Key)
  | hasArgument (key : Key)
  | argumentKeys
  | argumentCount
  | descriptor (i : UInt32)

namespace Force

/-- What is asked of the heap, the first request first: to read through an arguments object is to ask
for the object before. -/
def requests (frame : FrameId) : Force → List Request
  | arguments => [.operation (.arguments frame)]
  | argumentsValue => [.operation (.argumentsValue frame)]
  | binding i => [.operation (.getBinding frame i)]
  | get key => [.operation (.get (.activation frame) key)]
  | has key => [.has (.activation frame) key]
  | keys => [.keys (.activation frame)]
  | getArgument key => [.operation (.arguments frame), .operation (.get (.arguments frame) key)]
  | hasArgument key => [.operation (.arguments frame), .has (.arguments frame) key]
  | argumentKeys => [.operation (.arguments frame), .keys (.arguments frame)]
  | argumentCount => [.operation (.arguments frame), .argumentCount frame]
  | descriptor i => [.operation (.arguments frame), .descriptor frame i]

/-- The call gives the arguments object of the frame, or reads through it. -/
def Reaches (f : Frame) : Force → Prop
  | argumentsValue => f.argumentsValue = .object (.arguments f.id)
  | binding i => f.get i = .ok (.object (.arguments f.id))
  | get key => f.getByKey key = .ok (some (.object (.arguments f.id)))
  | has _ | keys => False
  | _ => True

theorem isRead (force : Force) (frame : FrameId) : ∀ r ∈ force.requests frame, r.IsRead := by
  cases force <;> simp [requests, Request.IsRead, Operation.IsRead]

end Force

/-- A request of the run, or a call that was put in for what it forces. -/
inductive Event where
  | request (r : Request)
  | force (frame : FrameId) (force : Force)

def Event.isRequest : Event → Bool
  | request _ => true
  | force _ _ => false

namespace Heap

variable {h h' h'' : Heap} {r : Request} {rs : List Request} {a : Answer} {id : FrameId} {f : Frame}
  {op : Operation}

/-- The heap answers the requests, the first one first. -/
inductive AnswersAll : Heap → List Request → Heap → Prop
  | nil {h : Heap} : AnswersAll h [] h
  | cons {h h₁ h' : Heap} {r : Request} {rs : List Request} {a : Answer} :
    h.Responds r a h₁ → AnswersAll h₁ rs h' → AnswersAll h (r :: rs) h'

/-! ### They change what is built alone -/

theorem WellFormed.published_setFrame (w : h.WellFormed) (isFrame : h.frame id = .ok f) :
    h.Published (h.setFrame f.withArguments) := by
  obtain ⟨rfl, _, _, _⟩ := w.frame isFrame
  have published := (Published.refl h).setFrame f.published_withArguments
  rwa [setFrame_self isFrame] at published

theorem Responds.published (responds : h.Responds r a h') (read : r.IsRead) (w : h.WellFormed) :
    h.Published h' := by
  rcases responds.step with ⟨op, rfl, step⟩ | rfl
  · cases step.effect with
    | read => exact .refl h
    | handOut _ isFrame => exact w.published_setFrame isFrame
    | _ => cases read
  · exact .refl h'

theorem AnswersAll.published (answers : h.AnswersAll rs h') (reads : ∀ r ∈ rs, r.IsRead)
    (w : h.WellFormed) : h.Published h' := by
  induction answers with
  | nil => exact .refl _
  | cons responds _ ih =>
    have published := responds.published (reads _ (List.mem_cons_self ..)) w
    exact published.trans
      (ih (fun r mem => reads r (List.mem_cons_of_mem _ mem)) (published.wellFormed w))

/-! ### They are answered -/

theorem arguments_eq (isFrame : h.frame id = .ok f) :
    h.arguments id = .ok (.arguments id, h.setFrame f.withArguments) := by
  simp [Heap.arguments, isFrame]

theorem WellFormed.frame_built (w : h.WellFormed) (isFrame : h.frame id = .ok f) :
    (h.setFrame f.withArguments).frame id = .ok f.withArguments := by
  obtain ⟨rfl, _, _, _⟩ := w.frame isFrame
  rw [frame_setFrame (f.id_withArguments.symm ▸ isFrame), if_pos f.id_withArguments.symm]

theorem WellFormed.argumentsObject_built (w : h.WellFormed) (isFrame : h.frame id = .ok f) :
    (h.setFrame f.withArguments).argumentsObject id = .ok f.object :=
  argumentsObject_eq_ok.2 ⟨_, w.frame_built isFrame, f.argumentsObject?_withArguments⟩

theorem WellFormed.responds (w : h.WellFormed) (names : h.Names op) (allowed : h.Allows op) :
    ∃ a h', h.Responds (.operation op) a h' := by
  obtain ⟨h', performed⟩ := w.perform names
  obtain ⟨a, replied⟩ := reply_of_perform performed
  refine ⟨a, h', fun same => ?_, replied⟩
  cases same
  exact allowed

theorem answersAll_single (answered : ∃ a h', h.Responds r a h') : ∃ h', h.AnswersAll [r] h' := by
  obtain ⟨a, h', responds⟩ := answered
  exact ⟨h', .cons responds .nil⟩

/-- What can be asked of an arguments object can be asked of it after asking for it. -/
theorem WellFormed.answersAll_arguments (w : h.WellFormed) (isFrame : h.frame id = .ok f)
    (answered : ∀ {h₁ : Heap}, h₁.WellFormed → h₁.argumentsObject id = .ok f.object →
      ∃ a h', h₁.Responds r a h') :
    ∃ h', h.AnswersAll [.operation (.arguments id), r] h' := by
  have responds : h.Responds (.operation (.arguments id)) (.object (some (.arguments id)))
      (h.setFrame f.withArguments) := by
    refine ⟨fun same => ?_, ?_⟩
    · cases same
      trivial
    · rw [respond, reply, arguments_eq isFrame]
      rfl
  obtain ⟨a, h', responds'⟩ :=
    answered (responds.preserved w).wellFormed (w.argumentsObject_built isFrame)
  exact ⟨h', .cons responds (.cons responds' .nil)⟩

theorem WellFormed.answersAll_force (w : h.WellFormed) (isFrame : h.frame id = .ok f) (force : Force) :
    ∃ h', h.AnswersAll (force.requests id) h' := by
  have there : ∃ f, h.frame id = .ok f := ⟨f, isFrame⟩
  cases force with
  | arguments => exact answersAll_single (w.responds there trivial)
  | argumentsValue => exact answersAll_single (w.responds there trivial)
  | binding i => exact answersAll_single (w.responds there trivial)
  | get key => exact answersAll_single (w.responds there trivial)
  | has key =>
    obtain ⟨answer, found⟩ := w.has (.activation id) key there
    exact answersAll_single ⟨.truth answer, h, nofun, by simp [respond, found]⟩
  | keys =>
    obtain ⟨keys, listed⟩ := keys_eq_ok (.activation id) there
    exact answersAll_single ⟨.keys keys, h, nofun, by simp [respond, listed]⟩
  | getArgument key =>
    refine w.answersAll_arguments isFrame fun w₁ isObject => ?_
    exact w₁.responds ⟨_, isObject⟩ trivial
  | hasArgument key =>
    refine w.answersAll_arguments isFrame fun {h₁} w₁ isObject => ?_
    obtain ⟨answer, found⟩ := w₁.has (.arguments id) key ⟨_, isObject⟩
    exact ⟨.truth answer, h₁, nofun, by simp [respond, found]⟩
  | argumentKeys =>
    refine w.answersAll_arguments isFrame fun {h₁} w₁ isObject => ?_
    obtain ⟨keys, listed⟩ := keys_eq_ok (.arguments id) ⟨_, isObject⟩
    exact ⟨.keys keys, h₁, nofun, by simp [respond, listed]⟩
  | argumentCount =>
    refine w.answersAll_arguments isFrame fun {h₁} w₁ isObject => ?_
    exact ⟨.count f.object.size, h₁, nofun, by simp [respond, isObject]⟩
  | descriptor i =>
    refine w.answersAll_arguments isFrame fun {h₁} w₁ isObject => ?_
    obtain ⟨f₁, isFrame₁, same⟩ := frame_of_argumentsObject isObject
    obtain ⟨_, wf, _, t, _, fits⟩ := w₁.frame isFrame₁
    obtain ⟨descriptor, found⟩ := wf.object.descriptor? fits i
    rw [same] at found
    exact ⟨.descriptor descriptor, h₁, nofun, by simp [respond, argumentDescriptor?, isObject, found]⟩

/-! ## Runs with forcing -/

/-- The history of a run, the newest event first, with the answers to its requests and the heap after
it. What the other calls answer is not looked at. -/
inductive Plays (start : Heap) : List Event → List Answer → Heap → Prop
  | start : Plays start [] [] start
  | request {events : List Event} {answers : List Answer} {h h' : Heap} {r : Request} {a : Answer} :
    Plays start events answers h → h.Responds r a h' →
    Plays start (.request r :: events) (a :: answers) h'
  | force {events : List Event} {answers : List Answer} {h h' : Heap} {frame : FrameId}
    {force : Force} : Plays start events answers h → h.AnswersAll (force.requests frame) h' →
    Plays start (.force frame force :: events) answers h'

variable {start : Heap} {events : List Event} {answers answers' : List Answer}

theorem Plays.wellFormed (plays : start.Plays events answers h) (w : start.WellFormed) :
    h.WellFormed := by
  induction plays with
  | start => exact w
  | request _ responds ih => exact (responds.preserved ih).wellFormed
  | force _ answered ih => exact (answered.published (Force.isRead _ _) ih).wellFormed ih

theorem Plays.frame (plays : start.Plays events answers h) (w : start.WellFormed)
    (isFrame : start.frame id = .ok f) : ∃ f', h.frame id = .ok f' := by
  induction plays with
  | start => exact ⟨f, isFrame⟩
  | request before responds ih =>
    obtain ⟨f₁, isFrame₁⟩ := ih
    exact responds.frame (before.wellFormed w) isFrame₁
  | force before answered ih =>
    obtain ⟨f₁, isFrame₁⟩ := ih
    have published := answered.published (Force.isRead _ _) (before.wellFormed w)
    obtain ⟨f', isFrame', _⟩ := published.frame isFrame₁
    exact ⟨f', isFrame'⟩

/-- The calls that were put in change no answer. -/
theorem Plays.published (plain : start.Plays (events.filter Event.isRequest) answers h)
    (forced : start.Plays events answers' h') (w : start.WellFormed) :
    answers' = answers ∧ h.Published h' := by
  -- Both runs move with a request, and the second alone with a call that was put in.
  induction events generalizing answers answers' h h' with
  | nil =>
    cases plain
    cases forced
    exact ⟨rfl, .refl start⟩
  | cons event events ih =>
    cases forced with
    | request forced responds' =>
      cases plain with
      | request plain responds =>
        obtain ⟨rfl, published⟩ := ih plain forced
        obtain ⟨_, answered, published'⟩ := published.responds responds
        obtain ⟨rfl, rfl⟩ := answered.unique responds'
        exact ⟨rfl, published'⟩
    | force forced answered =>
      obtain ⟨rfl, published⟩ := ih plain forced
      exact ⟨rfl, published.trans (answered.published (Force.isRead _ _) (forced.wellFormed w))⟩

/-- Every frame that is forced is there at that point of the run. -/
def Finds (start : Heap) (events : List Event) : Prop :=
  ∀ newer {older id force answers h}, events = newer ++ .force id force :: older →
    start.Plays (older.filter Event.isRequest) answers h → ∃ f, h.frame id = .ok f

theorem Finds.tail {event : Event} (finds : start.Finds (event :: events)) : start.Finds events := by
  intro newer older id force answers h split plain
  exact finds (event :: newer) (congrArg (event :: ·) split) plain

theorem finds_of_start (w : start.WellFormed)
    (there : ∀ {id force}, .force id force ∈ events → ∃ f, start.frame id = .ok f) :
    start.Finds events := by
  intro newer older id force answers h split plain
  obtain ⟨f, isFrame⟩ := there (split ▸ List.mem_append_right newer (List.mem_cons_self ..))
  exact plain.frame w isFrame

/-- They can be made at any point. -/
theorem Plays.forced (plain : start.Plays (events.filter Event.isRequest) answers h)
    (w : start.WellFormed) (finds : start.Finds events) : ∃ h', start.Plays events answers h' := by
  induction events generalizing answers h with
  | nil => exact ⟨h, plain⟩
  | cons event events ih =>
    cases event with
    | request r =>
      cases plain with
      | request plain responds =>
        obtain ⟨h', forced⟩ := ih plain finds.tail
        obtain ⟨_, published⟩ := plain.published forced w
        obtain ⟨k', answered, _⟩ := published.responds responds
        exact ⟨k', .request forced answered⟩
    | force id force =>
      have plain : start.Plays (events.filter Event.isRequest) answers h := plain
      obtain ⟨h', forced⟩ := ih plain finds.tail
      obtain ⟨_, published⟩ := plain.published forced w
      -- What is there in the run without the calls is there in the run with them.
      obtain ⟨f, isFrame⟩ := finds [] rfl plain
      obtain ⟨f', isFrame', _⟩ := published.frame isFrame
      obtain ⟨k', answered⟩ := (forced.wellFormed w).answersAll_force isFrame' force
      exact ⟨k', .force forced answered⟩

/-! ## The one arguments object -/

/-- An arguments object is never taken back. -/
theorem FrameEffect.stays_built {f' : Frame} (effect : h.FrameEffect f op f')
    (built : f.arguments.isSome) : f'.arguments.isSome := by
  cases effect with
  | still _ => exact built
  | built _ =>
    rw [Frame.withArguments_eq_state]
    rfl
  | assign _ _ assigned _ | freeze assigned _ =>
    obtain ⟨_, _, rfl⟩ := assigned.frame
    exact built
  | ownProperty _ _ _ _ => exact built
  | putArgument _ | putProperty _ _ _ | deleteProperty _ => rfl

theorem Runs.stays_built {ops : List Operation} (runs : h.Runs ops h') (w : h.WellFormed)
    (isFrame : h.frame id = .ok f) :
    ∃ f', h'.frame id = .ok f' ∧ (f.arguments.isSome → f'.arguments.isSome) := by
  induction runs with
  | start => exact ⟨f, isFrame, fun built => built⟩
  | step before step ih =>
    obtain ⟨f₁, isFrame₁, built₁⟩ := ih
    obtain ⟨f', isFrame', effect⟩ := step.effect.frameEffect (before.preserved w).wellFormed isFrame₁
    exact ⟨f', isFrame', fun built => effect.stays_built (built₁ built)⟩

theorem WellFormed.arguments_eq_self (w : h.WellFormed) (isFrame : h.frame id = .ok f)
    (built : f.arguments.isSome) : h.arguments id = .ok (.arguments id, h) := by
  obtain ⟨rfl, _, _, _⟩ := w.frame isFrame
  obtain ⟨state, isState⟩ := Option.isSome_iff_exists.1 built
  have isObject : f.argumentsObject? = some { state with args := f.args } :=
    congrArg (Option.map _) isState
  rw [arguments_eq isFrame, Frame.withArguments_of_argumentsObject? isObject, setFrame_self isFrame]

/-- If a call reaches the object, its first request builds it. -/
theorem Force.exists_first {force : Force} (reaches : force.Reaches f)
    (isFrame : h.frame f.id = .ok f) : ∃ r rs a, force.requests f.id = r :: rs ∧
      h.respond r = .ok (a, h.setFrame f.withArguments) := by
  have given : h.handOut (.object (.arguments f.id)) = h.setFrame f.withArguments := by
    rw [handOut, isFrame]
  have built : h.respond (.operation (.arguments f.id)) =
      .ok (.object (some (.arguments f.id)), h.setFrame f.withArguments) := by
    simp [respond, reply, arguments_eq isFrame]
  cases force with
  | argumentsValue =>
    refine ⟨_, _, .value (some (.object (.arguments f.id))), rfl, ?_⟩
    simp [respond, reply, Heap.argumentsValue, isFrame, show f.argumentsValue = _ from reaches, given]
  | binding i =>
    refine ⟨_, _, .value (some (.object (.arguments f.id))), rfl, ?_⟩
    simp [respond, reply, getBinding, isFrame, show f.get i = _ from reaches, given]
  | get key =>
    refine ⟨_, _, .value (some (.object (.arguments f.id))), rfl, ?_⟩
    simp [respond, reply, Heap.get, read, isFrame, show f.getByKey key = _ from reaches, given]
  | has | keys => cases reaches
  | arguments | getArgument | hasArgument | argumentKeys | argumentCount | descriptor =>
    exact ⟨_, _, _, rfl, built⟩

/-- What asking for the arguments object of a frame comes to. -/
structure Publishes (h : Heap) (id : FrameId) (f : Frame) : Prop where
  /-- Every call gives the same object, and none but the first builds it. -/
  same : ∀ {ops later}, h.Runs ops later → ∃ built a,
    later.arguments id = .ok (.arguments id, built) ∧ built.argumentsObject id = .ok a ∧
      ∀ {ops latest}, built.Runs ops latest → latest.arguments id = .ok (.arguments id, latest)
  /-- A call that gives the object or reads through it leaves the object there. -/
  left : ∀ {force built}, force.Reaches f → h.AnswersAll (Force.requests id force) built →
    ∃ a, built.argumentsObject id = .ok a
  /-- However it is built, the object shows the arguments as they then are, and the parameters. -/
  current : f.argumentsObject? = none → ∀ {force built a},
    h.AnswersAll (Force.requests id force) built → built.argumentsObject id = .ok a →
      ∀ i, a.getIndex i = .ok (f.args.get? i.toNat) ∧
        (i < f.localsStart → ∃ value, f.get i = .ok value ∧ a.getIndex i = .ok (some value))
  /-- No arguments are copied, and no table changes. -/
  kept : ∀ {force built}, h.AnswersAll (Force.requests id force) built → built.tables = h.tables ∧
    ∀ {id f}, h.frame id = .ok f → ∃ f', built.frame id = .ok f' ∧ f'.args = f.args

theorem WellFormed.publishes (w : h.WellFormed) (isFrame : h.frame id = .ok f) : h.Publishes id f where
  same := by
    intro ops later runs
    obtain ⟨f₁, isFrame₁, _⟩ := runs.stays_built w isFrame
    have w₁ := (runs.preserved w).wellFormed
    have w₂ := (w₁.published_setFrame isFrame₁).wellFormed w₁
    refine ⟨_, _, arguments_eq isFrame₁, w₁.argumentsObject_built isFrame₁, fun {_ latest} runs' => ?_⟩
    obtain ⟨f', isFrame', built⟩ := runs'.stays_built w₂ (w₁.frame_built isFrame₁)
    refine (runs'.preserved w₂).wellFormed.arguments_eq_self isFrame' (built ?_)
    rw [Frame.withArguments_eq_state]
    rfl
  left := by
    intro force built reaches answered
    obtain ⟨rfl, _, _, _⟩ := w.frame isFrame
    obtain ⟨r, rs, a, first, responds⟩ := Force.exists_first reaches isFrame
    have reads := force.isRead f.id
    rw [first] at answered reads
    cases answered with
    | cons responds' later =>
      obtain ⟨rfl, rfl⟩ := Prod.mk.inj (Except.ok.inj (responds'.answered.symm.trans responds))
      have w' := (responds'.preserved w).wellFormed
      have published := later.published (fun r mem => reads r (List.mem_cons_of_mem _ mem)) w'
      exact ⟨_, published.argumentsObject (w.argumentsObject_built isFrame)⟩
  current unbuilt := by
    intro force built a answered isObject i
    have published := answered.published (Force.isRead _ _) w
    obtain ⟨f', isFrame', related⟩ := published.frame isFrame
    obtain ⟨f'', isFrame'', same⟩ := frame_of_argumentsObject isObject
    obtain rfl := Except.ok.inj (isFrame'.symm.trans isFrame'')
    have shown : a.getIndex i = .ok (f.args.get? i.toNat) := by
      rw [← same, related.object_eq]
      exact Frame.getIndex_of_not_built unbuilt i
    refine ⟨shown, fun parameter => ?_⟩
    obtain ⟨value, held⟩ := (w.frame isFrame).frame.argument parameter
    refine ⟨value, ?_, shown.trans (congrArg Except.ok held)⟩
    rw [Frame.get_of_lt parameter, held]
    rfl
  kept answered := by
    have published := answered.published (Force.isRead _ _) w
    refine ⟨published.tables_eq, fun isFrame => ?_⟩
    obtain ⟨f', isFrame', related⟩ := published.frame isFrame
    exact ⟨f', isFrame', related.reads Frame.args fun _ _ => rfl⟩

/-! ## Publication -/

/-- A run with calls put in for what they force, against the run without them. -/
structure Unobservable (start : Heap) (events : List Event) (answers : List Answer) (h : Heap) :
    Prop where
  /-- Every request is answered as it was, and the heaps differ in what is built. -/
  same : ∀ {answers' h'}, start.Plays events answers' h' → answers' = answers ∧ h.Published h'
  possible : start.Finds events → ∃ h', start.Plays events answers h'

theorem publication_is_unobservable (reachable : start.Reachable) :
    (∀ {events answers h}, start.Plays (events.filter Event.isRequest) answers h →
      start.Unobservable events answers h) ∧
    ∀ {id f}, start.frame id = .ok f → start.Publishes id f := by
  have w := reachable.wellFormed
  refine ⟨fun plain => ⟨fun forced => plain.published forced w, plain.forced w⟩, fun isFrame => ?_⟩
  exact w.publishes isFrame

/-- A parameter that was written before the run and is written again in it. The arguments object is
built at the start of the run, and read between the write and the request for the parameter. -/
theorem publication_is_unobservable_of_late_read : ∃ start events answers h h' f, Reachable start ∧
    start.Plays (events.filter Event.isRequest) answers h ∧ start.Plays events answers h' ∧
    answers = [.value (some .null), .nothing] ∧ start.frame ⟨0⟩ = .ok f ∧ f.argumentsObject? = none ∧
    start.Unobservable events answers h ∧ start.Publishes ⟨0⟩ f := by
  let events : List Event := [
    .request (.operation (.getBinding ⟨0⟩ 0)), .force ⟨0⟩ (.getArgument (.index 0)),
    .request (.operation (.setBinding ⟨0⟩ 0 .null)), .force ⟨0⟩ .arguments]
  obtain ⟨start, runs, plain, f, isFrame, unbuilt⟩ : ∃ start, Runs {} [
      .setBinding ⟨0⟩ 0 (.boolean true),
      .makeFrame ⟨0⟩ { id := ⟨0⟩, code := { paramNames := ["p"] } } #[.undefined, .null] .undefined,
      .makeTable {}] start ∧
      (∃ h, start.Plays (events.filter Event.isRequest) [.value (some .null), .nothing] h) ∧
      ∃ f, start.frame ⟨0⟩ = .ok f ∧ f.argumentsObject? = none :=
    ⟨_, runs_afterAll (by decide +kernel),
      ⟨_, .request (.request .start ⟨fun | rfl => trivial, rfl⟩) ⟨fun | rfl => trivial, rfl⟩⟩,
      by decide +kernel⟩
  obtain ⟨h, plain⟩ := plain
  have reachable : Reachable start := ⟨_, runs⟩
  obtain ⟨unobservable, publishes⟩ := publication_is_unobservable reachable
  have finds : start.Finds events := by
    refine finds_of_start reachable.wellFormed fun {id force} mem => ⟨f, ?_⟩
    have here : id = ⟨0⟩ := by grind
    rw [here]
    exact isFrame
  obtain ⟨h', forced⟩ := (unobservable plain).possible finds
  exact ⟨start, events, _, h, h', f, reachable, plain, forced, rfl, isFrame, unbuilt,
    unobservable plain, publishes isFrame⟩

end Heap

end ShapeVM
