import TextureMemory.Proofs.Context.Reachable
import TextureMemory.Scene

/-!
# Sessions

A session ends in one of three ways: it is done, a call fails, or the program halts. `Session.Ensures` says
of each way what is to hold then, and goes along a session call by call (`Session.Ensures.bind`).

A session that makes nothing but calls leads from reachable contexts to reachable contexts only
(`Session.Keeps`).
-/

namespace TextureMemory.Session

open Context (Action Answer Reachable Effect)

/-- What holds when a session is done, what when a call of it failed, and what when the program halted. -/
structure Ensures {α : Type} (m : Session α) (c : Context) (done : α → Context → Prop)
    (failed : TextureError → Context → Prop) (halted : Fault → Prop) : Prop where
  ok : ∀ {a d}, m c = .ok (.ok a, d) → done a d
  error : ∀ {e d}, m c = .ok (.error e, d) → failed e d
  fault : ∀ {f}, m c = .error f → halted f

/-- A session that does not leave the contexts of which something holds, whether or not it is done. -/
def Maintains {α : Type} (m : Session α) (I : Context → Prop) : Prop :=
  ∀ c, I c → m.Ensures c (fun _ d => I d) (fun _ d => I d) (fun _ => True)

/-- A session that does not leave the contexts that runs lead to, whether or not it is done. -/
def Keeps {α : Type} (m : Session α) : Prop :=
  ∀ c, c.Reachable → m.Ensures c (fun _ d => d.Reachable) (fun _ d => d.Reachable) (fun _ => True)

/-- A session that does what a call does, and tells what the call answers. -/
def Performs {α : Type} (m : Session α) (action : Action) (told : α → Answer) : Prop :=
  ∀ c : Context, c.perform action = (m c).map (Context.answer told)

/-- Whether a session is done, with an answer and a context that pass a test. -/
def passes {α : Type} (m : Session α) (c : Context) (test : α → Context → Bool) : Bool :=
  match m c with
  | .ok (.ok a, d) => test a d
  | _ => false

/-- Whether a session halts the program. -/
def halts {α : Type} (m : Session α) (c : Context) (fault : Fault) : Bool :=
  match m c with
  | .error f => f = fault
  | .ok _ => false

variable {α β : Type} {m : Session α} {f : α → Session β} {c c' : Context} {a : α} {b : β}
  {e : TextureError} {fault : Fault} {I : Context → Prop} {action : Action} {told : α → Answer}
  {mid : α → Context → Prop} {done done' : β → Context → Prop}
  {failed failed' : TextureError → Context → Prop} {halted halted' : Fault → Prop}

/-! ## One call after the other -/

/-- What comes after a call that is done goes on with its answer. -/
theorem bind_of_ok (h : m c = .ok (.ok a, c')) : (m >>= f) c = f a c' := by
  simp only [Bind.bind, ExceptT.bind, ExceptT.mk, StateT.bind, h]
  rfl

/-- A call that fails ends the session. -/
theorem bind_of_error (h : m c = .ok (.error e, c')) : (m >>= f) c = .ok (.error e, c') := by
  simp only [Bind.bind, ExceptT.bind, ExceptT.mk, StateT.bind, h]
  rfl

/-- A call that halts the program halts the session. -/
theorem bind_of_fault (h : m c = .error fault) : (m >>= f) c = .error fault := by
  simp only [Bind.bind, ExceptT.bind, ExceptT.mk, StateT.bind, h]
  rfl

/-- A session that is done has done what comes first, and then what comes next. -/
theorem exists_of_bind (h : (m >>= f) c = .ok (.ok b, c')) :
    ∃ a d, m c = .ok (.ok a, d) ∧ f a d = .ok (.ok b, c') := by
  rcases hm : m c with fault | ⟨e | a, d⟩
  · cases (bind_of_fault hm).symm.trans h
  · cases (bind_of_error hm).symm.trans h
  · exact ⟨a, d, rfl, (bind_of_ok hm).symm.trans h⟩

/-- A session is done without its answer only if it is done. -/
theorem exists_of_discard (h : (discard m : Session Unit) c = .ok (.ok (), c')) :
    ∃ a, m c = .ok (.ok a, c') := by
  rw [show (Functor.discard m : Session Unit) = m >>= fun _ => pure () from map_eq_pure_bind _ m] at h
  obtain ⟨a, d, hm, ⟨⟩⟩ := exists_of_bind h
  exact ⟨a, hm⟩

/-- An answer that nobody looks at is left out. -/
theorem discard_of_ok (h : m c = .ok (.ok a, c')) :
    (discard m : Session Unit) c = .ok (.ok (), c') := by
  rw [show (Functor.discard m : Session Unit) = m >>= fun _ => pure () from map_eq_pure_bind _ m,
    bind_of_ok h]
  rfl

namespace Ensures

theorem of_ok {done : α → Context → Prop} (h : m c = .ok (.ok a, c')) (hdone : done a c') :
    m.Ensures c done failed halted := by
  refine ⟨?_, ?_, ?_⟩ <;> intros <;> simp_all

theorem of_error {done : α → Context → Prop} (h : m c = .ok (.error e, c')) (hfailed : failed e c') :
    m.Ensures c done failed halted := by
  refine ⟨?_, ?_, ?_⟩ <;> intros <;> simp_all

theorem of_fault {done : α → Context → Prop} (h : m c = .error fault) (hhalted : halted fault) :
    m.Ensures c done failed halted := by
  refine ⟨?_, ?_, ?_⟩ <;> intros <;> simp_all

/-- After the calls that come first, what comes next goes on from where they led to. -/
theorem bind (hm : m.Ensures c mid failed halted)
    (hf : ∀ a d, mid a d → (f a).Ensures d done failed halted) :
    (m >>= f).Ensures c done failed halted := by
  rcases h : m c with fault | ⟨e | a, d⟩
  · exact of_fault (bind_of_fault h) (hm.fault h)
  · exact of_error (bind_of_error h) (hm.error h)
  · have hrest := hf a d (hm.ok h)
    have heq : (m >>= f) c = f a d := bind_of_ok h
    exact ⟨fun h' => hrest.ok (heq.symm.trans h'), fun h' => hrest.error (heq.symm.trans h'),
      fun h' => hrest.fault (heq.symm.trans h')⟩

/-- What is ensured may be weakened. -/
theorem mono {done done' : α → Context → Prop} (hm : m.Ensures c done failed halted)
    (hdone : ∀ a d, done a d → done' a d) (hfailed : ∀ e d, failed e d → failed' e d)
    (hhalted : ∀ fault, halted fault → halted' fault) : m.Ensures c done' failed' halted' :=
  ⟨fun h => hdone _ _ (hm.ok h), fun h => hfailed _ _ (hm.error h), fun h => hhalted _ (hm.fault h)⟩

/-- An answer that nobody looks at. -/
theorem discard {done : Unit → Context → Prop} (hm : m.Ensures c (fun _ => done ()) failed halted) :
    (discard m : Session Unit).Ensures c done failed halted := by
  rw [show (Functor.discard m : Session Unit) = m >>= fun _ => pure () from map_eq_pure_bind _ m]
  exact hm.bind fun _ d hdone => of_ok rfl hdone

end Ensures

/-! ## Sessions that make calls -/

/-- What a call does that answers is among its effects. -/
theorem Performs.ensures (hm : m.Performs action told) (hc : c.Reachable) :
    m.Ensures c (fun a d => d.Reachable ∧ Effect c action (told a) d)
      (fun e d => d.Reachable ∧ Effect c action (.failed e) d) (fun _ => True) := by
  refine ⟨?_, ?_, fun _ => trivial⟩
  · intro a d h
    have hperform : c.perform action = .ok (told a, d) := by rw [hm c, h]; rfl
    exact ⟨hc.next hperform, hc.valid.effect hperform⟩
  · intro e d h
    have hperform : c.perform action = .ok (.failed e, d) := by rw [hm c, h]; rfl
    exact ⟨hc.next hperform, hc.valid.effect hperform⟩

/-- A call that is done. -/
theorem Performs.effect (hm : m.Performs action told) (hc : c.Reachable) (h : m c = .ok (.ok a, c')) :
    c'.Reachable ∧ Effect c action (told a) c' := (hm.ensures hc).ok h

/-- A call maintains what it leaves true however it answers. -/
theorem Performs.maintains (hm : m.Performs action told)
    (hI : ∀ c answer d, I c → c.perform action = .ok (answer, d) → I d) : m.Maintains I := by
  intro c hc
  refine ⟨fun {a d} h => hI c (told a) d hc ?_, fun {e d} h => hI c (.failed e) d hc ?_,
    fun _ => trivial⟩ <;> (rw [hm c, h]; rfl)

namespace Maintains

theorem pure (a : α) : Maintains (Pure.pure a : Session α) I := fun _ hc => .of_ok rfl hc

theorem get : Maintains (MonadState.get : Session Context) I := fun _ hc => .of_ok rfl hc

/-- What two sessions maintain is maintained by one after the other. -/
theorem bind (hm : m.Maintains I) (hf : ∀ a, (f a).Maintains I) : (m >>= f).Maintains I :=
  fun c hc => (hm c hc).bind fun a d hd => hf a d hd

theorem discard (hm : m.Maintains I) : (discard m : Session Unit).Maintains I :=
  fun c hc => (hm c hc).discard

/-- What is maintained holds afterwards, whether or not the session was done. -/
theorem holds {reply : Except TextureError α} (hm : m.Maintains I) (hc : I c)
    (h : m c = .ok (reply, c')) : I c' := by
  cases reply with
  | ok a => exact (hm c hc).ok h
  | error e => exact (hm c hc).error h

end Maintains

theorem Keeps.reachable {reply : Except TextureError α} (hm : m.Keeps) (hc : c.Reachable)
    (h : m c = .ok (reply, c')) : c'.Reachable := Maintains.holds hm hc h

/-! ## Tests -/

/-- A session that passes a test is done. -/
theorem exists_of_passes {test : α → Context → Bool} (h : m.passes c test = true) :
    ∃ a d, m c = .ok (.ok a, d) ∧ test a d = true := by
  rw [passes] at h
  split at h
  · next a d heq => exact ⟨a, d, heq, h⟩
  · cases h

/-- A session that halts the program halts it with that fault. -/
theorem eq_of_halts (h : m.halts c fault = true) : m c = .error fault := by
  rw [halts] at h
  split at h
  · next f heq => rw [heq, of_decide_eq_true h]
  · cases h

/-! ## The calls of a scene -/

/-- Creating a texture is a call. -/
theorem performs_generate : Scene.generate.Performs .generate .slot := by
  intro c
  rw [Context.perform, Scene.generate, call]
  cases c.generate <;> rfl

theorem performs_activate (unit : Nat) :
    (Scene.activate unit).Performs (.activate unit) fun _ => .done := fun _ => rfl

theorem performs_bind (slot : Slot) : (call (·.bind slot)).Performs (.bind slot) fun _ => .done := by
  intro c
  rw [Context.perform, call]
  cases c.bind slot <;> rfl

theorem performs_define (format : Format) (width height : Nat) :
    (call (·.define format width height)).Performs (.define format width height) .address := by
  intro c
  rw [Context.perform, call]
  cases c.define format width height <;> rfl

theorem performs_sample : (call (·.sample)).Performs .sample fun _ => .done := by
  intro c
  rw [Context.perform, call]
  cases c.sample <;> rfl

theorem performs_delete (slot : Slot) :
    (call (·.delete slot)).Performs (.delete slot) fun _ => .done := by
  intro c
  rw [Context.perform, call]
  cases c.delete slot <;> rfl

end TextureMemory.Session
