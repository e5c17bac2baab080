import TextureMemory.Proofs.Context.Run
import TextureMemory.Proofs.Context.Stats
import TextureMemory.Settings.Text

/-!
# Why no run halts the program

Numbers that go up by one with a call cannot reach the limit of words in fewer calls than that. Sums of
bytes could, if blocks were handed out without end. But the cursor of the heap is a word and moves by
at least the size of every block that is handed out, so each of these sums is bounded by the distance
that it has moved, `Heap.spent`: the bytes in use, the bytes of the surfaces of all textures, the bytes
that were replaced, and the samples of the window together with what is to be pushed next.

This holds whatever is done to the heap behind the back of the textures, because the cursor never
moves back. All that is left is a table or a block too large for any memory
(`Context.halts_for_memory_only`).
-/

namespace TextureMemory

namespace Heap

variable {h : Heap} {size : Nat} {request : MemoryClass} {pool : Pool} {cursor : Address}

/-- What was spent is a word. -/
theorem Valid.spent_lt (hv : h.Valid) : h.spent < Word.limit := by
  have hlt := hv.cursor_lt
  rw [spent]
  omega

/-- No sum of bytes that is bounded by what was spent overflows by one more block. -/
theorem Grants.spent_add_lt (hv : h.Valid) (hg : h.Grants size request pool cursor) :
    h.spent + size < Word.limit := by
  have hle := hg.spent_add_le hv
  have hlt := (cursorAfter?_eq_some hg.next).2
  omega

end Heap

namespace Arena

variable {a a' : Arena} {slot : Slot} {new : Option Texture} {unit : Nat}

/-- The bytes of the surfaces of those textures in a list that own a block. -/
def held (l : List Texture) (unit : Nat) : Nat :=
  Word.total ((l.filter (·.backing.isSome)).map (·.bytes unit))

/-- The bytes of two lists of textures are those of both together. -/
theorem held_append {l l' : List Texture} : held (l ++ l') unit = held l unit + held l' unit := by
  rw [held, List.filter_append, List.map_append, Word.total_append]
  rfl

/-- A stamp takes no bytes. -/
theorem held_stamp {t : Texture} {stamp : Stamp} :
    held (some { t with stamp }).toList unit = held (some t).toList unit := by
  cases hp : t.backing with
  | none => simp [held, hp]
  | some p =>
    simp only [held, Option.toList_some, List.filter_cons, hp]
    rfl

/-- A texture with a new block takes the bytes of its surface. -/
theorem held_moveTo {t : Texture} {p : Address} {n : Nat} (h : t.size? unit = .ok (some n)) :
    held (some (t.moveTo p)).toList unit = n := by
  have hbytes : (t.moveTo p).bytes unit = n := Texture.bytes_eq h
  have hone : [t.moveTo p].filter (·.backing.isSome) = [t.moveTo p] := rfl
  rw [held, Option.toList_some, hone]
  simp [hbytes]

/-- One texture in the place of another: the bytes of all others stay the same. -/
theorem Update.exists_held (hu : Update a a' slot new) (unit : Nat) :
    ∃ k, held a.toList unit = held (a.get? slot).toList unit + k ∧
      held a'.toList unit = held new.toList unit + k := by
  obtain ⟨l₁, l₂, hold, hnew⟩ := hu.toList
  refine ⟨held l₁ unit + held l₂ unit, ?_, ?_⟩
  · rw [hold, held_append, held_append]
    omega
  · rw [hnew, held_append, held_append]
    omega

/-- A texture that takes no more bytes than the one whose place it takes. -/
theorem Update.held_le (hu : Update a a' slot new)
    (hle : held new.toList unit ≤ held (a.get? slot).toList unit) :
    held a'.toList unit ≤ held a.toList unit := by
  obtain ⟨k, hold, hnew⟩ := hu.exists_held unit
  omega

end Arena

/-! ## Numbers that are bounded -/

/-- The tallies after `n` calls, of which each was tallied at most once under the name of an event,
and with no more bytes than were spent. -/
structure Recorder.Bounded (n spent : Nat) (tally : Recorder Tally) : Prop where
  event_le : ∀ event ≠ Event.reclaimedBytes, tally.get event.name ≤ n
  bytes_le : tally.get Event.reclaimedBytes.name ≤ spent

namespace Context

/-- The bytes of a block that a call asks the heap for. -/
inductive Asks (c : Context) : Action → Nat → Prop
  | renew {action slot t shape size} (hrenews : Renews c action slot t shape size) :
      Asks c action size
  | allocate {size request} : Asks c (.heap (.allocate size request)) size

/-- The numbers of a context after `n` calls. Those that go up by one are at most `n`, and no sum of
bytes exceeds what the heap has spent. -/
structure Bounded (n : Nat) (c : Context) : Prop where
  count_le : c.arena.count ≤ n
  frame_le : c.frame ≤ n
  reclaims_le : c.reclaims ≤ n
  tally : c.tally.Bounded n c.heap.spent
  window_le : c.pending + c.window.read 0 Window.total ≤ c.heap.spent
  held_le : Arena.held c.arena.toList c.policy.unit ≤ c.heap.spent

end Context

variable {c₀ c c' : Context} {past : List Context.Step} {action : Context.Action}
  {told : Context.Answer} {slot : Slot} {t : Texture} {s : Settings} {budgets : Budgets}
  {n m spent spent' : Nat} {event : Event} {fault : Fault} {r r' : Recorder Tally} {size : Nat}

/-! ## Tallies -/

namespace Recorder

/-- Bounds can be raised. -/
theorem Bounded.mono (hb : r.Bounded n spent) (hn : n ≤ m) (hs : spent ≤ spent') :
    r.Bounded m spent' :=
  ⟨fun e he => Nat.le_trans (hb.event_le e he) hn, Nat.le_trans hb.bytes_le hs⟩

/-- A sum goes up where its own event is tallied. -/
theorem get_le_of_update (hv : r.Holds Tally.Valid) (h : r.update (·.add event.name m) = .ok r')
    (e : Event) :
    r'.get e.name ≤ r.get e.name + if e = event then m else 0 := by
  cases r with
  | on t => exact Nat.le_of_eq (read_of_update hv nofun h e)
  | off =>
    cases h
    exact Nat.zero_le _

/-- An event that is tallied raises the bound of its sum by one. -/
theorem Bounded.update (hb : r.Bounded n spent) (hv : r.Holds Tally.Valid)
    (hevent : event ≠ .reclaimedBytes) (h : r.update (·.add event.name 1) = .ok r') :
    r'.Bounded (n + 1) spent where
  event_le e he := by
    have hle := get_le_of_update hv h e
    have hn := hb.event_le e he
    split at hle <;> omega
  bytes_le := by
    have hle := get_le_of_update hv h .reclaimedBytes
    rw [if_neg (Ne.symm hevent)] at hle
    exact Nat.le_trans hle hb.bytes_le

/-- Bytes that are tallied raise the bound of their sum by as many. -/
theorem Bounded.update_bytes (hb : r.Bounded n spent) (hv : r.Holds Tally.Valid)
    (h : r.update (·.add Event.reclaimedBytes.name m) = .ok r') : r'.Bounded n (spent + m) where
  event_le e he := by
    have hle := get_le_of_update hv h e
    rw [if_neg he] at hle
    exact Nat.le_trans hle (hb.event_le e he)
  bytes_le := by
    have hle := get_le_of_update hv h .reclaimedBytes
    have hn := hb.bytes_le
    rw [if_pos rfl] at hle
    omega

/-- Tallying halts the program only where the sum is no word. -/
theorem overflow_of_update (hv : r.Holds Tally.Valid)
    (h : r.update (·.add event.name m) = .error fault) :
    fault = .overflow ∧ Word.limit ≤ r.get event.name + m := by
  obtain ⟨t, rfl, hadd⟩ := update_eq_error_iff.mp h
  rw [Tally.Valid.add_eq hv] at hadd
  split at hadd
  · cases hadd
  · next hlt =>
    cases hadd
    exact ⟨rfl, Nat.le_of_not_lt hlt⟩

/-- An event is tallied where the sum is a word. -/
theorem exists_update (hv : r.Holds Tally.Valid) (hlt : r.get event.name + m < Word.limit) :
    ∃ r', r.update (·.add event.name m) = .ok r' := by
  cases h : r.update (·.add event.name m) with
  | ok r' => exact ⟨r', rfl⟩
  | error fault => exact absurd hlt (Nat.not_lt.mpr (overflow_of_update hv h).2)

/-- Where something is tallied, a sum that is no word halts the program. -/
theorem update_of_limit (hv : r.Holds Tally.Valid) (hon : r ≠ .off)
    (hlimit : Word.limit ≤ r.get event.name + m) :
    r.update (·.add event.name m) = .error .overflow := by
  cases r with
  | off => exact absurd rfl hon
  | on t =>
    have hadd : t.add event.name m = .error .overflow := by
      rw [Tally.Valid.add_eq hv]
      exact if_neg (Nat.not_lt.mpr hlimit)
    rw [update, hadd]
    rfl

end Recorder

/-! ## One more call -/

namespace Context

/-- Nothing that was spent comes back. -/
theorem Effect.spent_le (he : Effect c action told c') : c.heap.spent ≤ c'.heap.spent :=
  Nat.sub_le_sub_right he.cursor_le _

/-- What was spent after a block was handed out. -/
theorem spent_discard {pool : Pool} {cursor : Address} {o : Option Block} :
    ((c.heap.extend size pool cursor).discard o).spent = cursor.value - Heap.base.value := by
  rw [Heap.spent, Heap.discard_cursor, Heap.extend_cursor]

/-- After one more call the numbers may be larger by one. -/
theorem Bounded.mono (hb : c.Bounded n) : c.Bounded (n + 1) :=
  ⟨Nat.le_succ_of_le hb.count_le, Nat.le_succ_of_le hb.frame_le, Nat.le_succ_of_le hb.reclaims_le,
    hb.tally.mono (Nat.le_succ n) (Nat.le_refl _), hb.window_le, hb.held_le⟩

/-- Giving a texture a new block keeps the numbers within their bounds: the block was paid for. -/
theorem Bounded.renew (hb : c.Bounded n) (hv : c.Valid) {shape : Texture} {pool : Pool}
    {cursor : Address} {reclaims pending : Nat} {tally : Recorder Tally}
    (hrenews : Renews c action slot t shape size)
    (hgrants : c.heap.Grants size c.policy.request pool cursor)
    (hcounts : Counts c size action reclaims pending tally) :
    { c with
      heap := (c.heap.extend size pool cursor).discard (t.backing.bind c.heap.block?)
      arena := c.arena.set slot (shape.moveTo c.heap.cursor)
      reclaims, pending, tally }.Bounded (n + 1) := by
  have hadd := hgrants.spent_add_le hv.heap
  have hwindow := hb.window_le
  have hspent : c.heap.spent ≤ cursor.value - Heap.base.value := by omega
  have hheld : Arena.held (c.arena.set slot (shape.moveTo c.heap.cursor)).toList c.policy.unit ≤
      cursor.value - Heap.base.value := by
    have hupdate : c.arena.Update _ slot (some (shape.moveTo c.heap.cursor)) :=
      Arena.update_set hrenews.get?
    obtain ⟨k, hold, hnew⟩ := hupdate.exists_held c.policy.unit
    have hle := hb.held_le
    rw [Arena.held_moveTo hrenews.size_eq] at hnew
    omega
  have hcount : (c.arena.set slot (shape.moveTo c.heap.cursor)).count ≤ n + 1 := by
    rw [Arena.set_eq hrenews.get?]
    exact Nat.le_succ_of_le hb.count_le
  cases hcounts with
  | define htally =>
    refine ⟨hcount, Nat.le_succ_of_le hb.frame_le, Nat.le_succ_of_le hb.reclaims_le, ?_, ?_, ?_⟩ <;>
      rw [spent_discard]
    · exact (hb.tally.update hv.tally (by decide) htally).mono (Nat.le_refl _) hspent
    · exact Nat.le_trans hwindow hspent
    · exact hheld
  | resolve _ _ honce htally =>
    refine ⟨hcount, Nat.le_succ_of_le hb.frame_le, Nat.succ_le_succ hb.reclaims_le, ?_, ?_, ?_⟩ <;>
      rw [spent_discard]
    · have hmid := hb.tally.update hv.tally (by decide) honce
      exact (hmid.update_bytes (Recorder.holds_of_update hv.tally honce) htally).mono (Nat.le_refl _) hadd
    · have hsum : c.pending + size + c.window.read 0 Window.total ≤
          cursor.value - Heap.base.value := by omega
      exact hsum
    · exact hheld

/-- A new texture is counted, and has no surface. -/
theorem Bounded.generate (hb : c.Bounded n) {arena : Arena}
    (hupdate : c.arena.Update arena slot (some (.blank slot))) (hadd : arena.count = c.arena.count + 1) :
    { c with arena }.Bounded (n + 1) := by
  obtain ⟨-, hframe, hreclaims, htally, hwindow, hheld⟩ := hb.mono
  have hcount : arena.count ≤ n + 1 := hadd ▸ Nat.succ_le_succ hb.count_le
  have hblank : Arena.held (some (.blank slot)).toList c.policy.unit = 0 := rfl
  exact ⟨hcount, hframe, hreclaims, htally, hwindow,
    Nat.le_trans (hupdate.held_le (hblank ▸ Nat.zero_le _)) hheld⟩

/-- A stamp changes neither the block of a texture nor its surface. -/
theorem Bounded.sample (hb : c.Bounded n) (hget : c.arena.get? slot = some t) {stamp : Stamp} :
    { c with arena := c.arena.set slot { t with stamp } }.Bounded (n + 1) := by
  obtain ⟨hcount, hframe, hreclaims, htally, hwindow, hheld⟩ := hb.mono
  have hupdate : c.arena.Update _ slot (some { t with stamp }) := Arena.update_set hget
  have hsame : Arena.held (some { t with stamp }).toList c.policy.unit =
      Arena.held (c.arena.get? slot).toList c.policy.unit := hget ▸ Arena.held_stamp
  refine ⟨?_, hframe, hreclaims, htally, hwindow, ?_⟩
  · rw [Arena.set_eq hget]
    exact hcount
  · exact Nat.le_trans (hupdate.held_le (Nat.le_of_eq hsame)) hheld

/-- A texture that is deleted takes its bytes along, and the deletion is tallied. -/
theorem Bounded.delete (hb : c.Bounded n) (hv : c.Valid) {arena : Arena} {units : Units} {old : Option Block}
    {tally : Recorder Tally} (hupdate : c.arena.Update arena slot none)
    (hadd : arena.count + 1 = c.arena.count)
    (htally : c.tally.update (·.add Event.deletions.name 1) = .ok tally) :
    { c with heap := c.heap.discard old, arena, units, tally }.Bounded (n + 1) := by
  obtain ⟨hcount, hframe, hreclaims, -, hwindow, hheld⟩ := hb.mono
  have hspent : (c.heap.discard old).spent = c.heap.spent := by
    rw [Heap.spent, Heap.discard_cursor, ← Heap.spent]
  have hfewer : arena.count ≤ n + 1 := Nat.le_trans (hadd ▸ Nat.le_succ _) hcount
  refine ⟨hfewer, hframe, hreclaims, ?_, ?_, ?_⟩ <;> rw [hspent]
  · exact hb.tally.update hv.tally (by decide) htally
  · exact hwindow
  · exact Nat.le_trans (hupdate.held_le (Nat.zero_le _)) hheld

/-- What is pending becomes a sample of the window, which may drop another one. -/
theorem Valid.total_of_push (hv : c.Valid) {window : Recorder (Window Nat)}
    (hpush : c.window.update (·.push c.pending) = .ok window) :
    window.read 0 Window.total ≤ c.pending + c.window.read 0 Window.total := by
  rcases Recorder.update_eq_ok_iff.mp hpush with ⟨w, w', hw, hok, rfl⟩ | ⟨-, rfl⟩
  · have hvalid : (Recorder.on w).Holds Window.Valid := hw ▸ hv.window
    obtain ⟨w'', heq, -, hle⟩ := Window.Valid.exists_push hvalid c.pending
    cases hok.symm.trans heq
    rw [hw, Nat.add_comm]
    exact hle
  · exact Nat.zero_le _

/-- No call takes the numbers of a context out of their bounds. -/
theorem Bounded.next (hb : c.Bounded n) (hv : c.Valid) (he : Effect c action told c') :
    c'.Bounded (n + 1) := by
  have hspent := he.spent_le
  obtain ⟨hcount, hframe, hreclaims, htally, hwindow, hheld⟩ := hb.mono
  cases he with
  | generate _ hupdate _ hadd _ => exact hb.generate hupdate hadd
  | renew hrenews hgrants _ hcounts => exact hb.renew hv hrenews hgrants hcounts
  | sample hbound => exact hb.sample (bound_eq_ok_iff.mp hbound).2
  | delete _ _ hupdate _ hadd htal => exact hb.delete hv hupdate hadd htal
  | @endFrame window hpush _ =>
    have htotal : 0 + window.read 0 Window.total ≤ c.heap.spent :=
      (Nat.zero_add _).symm ▸ Nat.le_trans (hv.total_of_push hpush) hb.window_le
    exact ⟨hcount, Nat.succ_le_succ hb.frame_le, hreclaims, htally, htotal, hheld⟩
  | exhaust _ _ _ htal =>
    exact ⟨hcount, hframe, hreclaims, hb.tally.update hv.tally (by decide) htal, hwindow, hheld⟩
  | stray _ _ _ _ hcounts =>
    refine ⟨hcount, hframe, hreclaims, ?_, Nat.le_trans hwindow hspent, Nat.le_trans hheld hspent⟩
    cases hcounts with
    | define => exact htally.mono (Nat.le_refl _) hspent
    | resolve htal => exact (hb.tally.update hv.tally (by decide) htal).mono (Nat.le_refl _) hspent
  | heap =>
    exact ⟨hcount, hframe, hreclaims, htally.mono (Nat.le_refl _) hspent, Nat.le_trans hwindow hspent,
      Nat.le_trans hheld hspent⟩
  | activate | bind | unbind | reuse | reject | keep =>
    exact ⟨hcount, hframe, hreclaims, htally, hwindow, hheld⟩

/-- Within the bounds, a call halts the program only if it asks for more than memory can hold. -/
theorem Bounded.tooLarge_of_halts (hb : c.Bounded n) (hv : c.Valid) (hn : n + 1 < Word.limit)
    (hhalts : Halts c action fault) :
    fault = .tooLarge ∧ ∃ size, Asks c action size ∧ Extent.limit ≤ size := by
  have hcount := hb.count_le
  have hframe := hb.frame_le
  have hwindow := hb.window_le
  cases hhalts with
  | renew hrenews hsize _ => exact ⟨rfl, _, .renew hrenews, hsize⟩
  | allocate hsize => exact ⟨rfl, _, .allocate, hsize⟩
  | generate hlimit | frame hlimit => omega
  | reclaims hlimit =>
    have hle := hb.reclaims_le
    omega
  | event hevent htally =>
    obtain ⟨-, hlimit⟩ := Recorder.overflow_of_update hv.tally htally
    have hle := hb.tally.event_le _ hevent
    omega
  | pending _ hgrants hlimit =>
    -- What is pending and the new block were both paid for by the cursor.
    have hlt := hgrants.spent_add_lt hv.heap
    omega
  | bytes _ hgrants honce htally =>
    obtain ⟨-, hlimit⟩ :=
      Recorder.overflow_of_update (Recorder.holds_of_update hv.tally honce) htally
    have hle := (hb.tally.update hv.tally (by decide) honce).bytes_le
    have hlt := hgrants.spent_add_lt hv.heap
    omega
  | window hpush =>
    -- Adding a sample to a valid window never halts the program.
    obtain ⟨w, hw, herror⟩ := Recorder.update_eq_error_iff.mp hpush
    have hvalid : (Recorder.on w).Holds Window.Valid := hw ▸ hv.window
    obtain ⟨w', hok, -⟩ := Window.Valid.exists_push hvalid c.pending
    rw [hok] at herror
    cases herror

/-! ## Along a run -/

/-- The numbers of a context are bounded by the number of calls, and by what the heap has spent. -/
theorem Run.bounded (hstart : ofSettings s (.ofBudgets budgets) = .ok (.ok c₀))
    (hrun : Run c₀ past c) : c.Bounded past.length := by
  refine hrun.induct_of_start (P := fun past c => c.Bounded past.length) hstart ?_
    fun hv hb he => hb.next hv he
  -- Nothing has been counted, spent or owned yet.
  have htally : (Recorder.on Tally.empty).Bounded 0 0 := ⟨fun _ _ => Nat.le_refl _, Nat.le_refl _⟩
  exact ⟨Nat.zero_le _, Nat.zero_le _, Nat.zero_le _, htally.mono (Nat.le_refl 0) (Nat.zero_le _),
    Nat.zero_le _, Nat.zero_le _⟩

/-- A window that is kept stays. -/
theorem Effect.window_on (he : Effect c action told c') (hon : ∃ w, c.window = .on w) :
    ∃ w, c'.window = .on w := by
  cases he with
  | endFrame hpush _ =>
    obtain ⟨w, hw⟩ := hon
    rcases Recorder.update_eq_ok_iff.mp hpush with ⟨_, w', _, _, rfl⟩ | ⟨hoff, -⟩
    · exact ⟨w', rfl⟩
    · rw [hw] at hoff
      cases hoff
  | _ => exact hon

/-- What is measured goes on being measured. -/
theorem Run.window_on (hstart : ofSettings s (.ofBudgets budgets) = .ok (.ok c₀))
    (hrun : Run c₀ past c) : ∃ w, c.window = .on w := by
  exact hrun.induct_of_start (P := fun _ c => ∃ w, c.window = .on w) hstart ⟨_, rfl⟩
    fun _ hon he => he.window_on hon

/-- Settings that were read from text have been checked. -/
theorem validate_of_ofText {text : String} (h : Settings.ofText text = .ok s) :
    s.validate = .ok () := by
  rw [Settings.ofText] at h
  split at h
  · cases h
  · next settings _ =>
    cases hvalidate : settings.validate with
    | error e =>
      rw [hvalidate] at h
      cases h
    | ok u =>
      rw [hvalidate] at h
      cases h
      exact hvalidate

/-- **No run halts the program.** Whatever settings are accepted, and whatever the budgets,

* setting up a context answers, unless one of its two tables is too large for any memory;
* a call after a run of so many calls that their number and one more is a word answers, unless it asks
  for a block too large for any memory;
* after every run, however long, the summary, the mean of the window and the bytes in use are
  answered. -/
theorem halts_for_memory_only
    (hs : s.validate = .ok () ∨ ∃ text, Settings.ofText text = .ok s) :
    ((∃ c₀, ofSettings s (.ofBudgets budgets) = .ok (.ok c₀)) ∨
      (ofSettings s (.ofBudgets budgets) = .error .tooLarge ∧
        (Extent.limit ≤ s.textureUnits * Units.width ∨
          Extent.limit ≤ max s.metricsWindow 1 * Extent.word))) ∧
    ∀ c₀ past c, ofSettings s (.ofBudgets budgets) = .ok (.ok c₀) → Run c₀ past c →
      (past.length + 1 < Word.limit → ∀ action,
        (∃ told c', c.perform action = .ok (told, c')) ∨
        (c.perform action = .error .tooLarge ∧ ∃ size, Asks c action size ∧ Extent.limit ≤ size)) ∧
      (∃ stats, c.stats = .ok stats) ∧ (∃ w mean, c.window = .on w ∧ w.mean = .ok mean) ∧
      ∃ bytes, c.heap.size = .ok bytes := by
  have hvalidate : s.validate = .ok () := by
    rcases hs with h | ⟨text, htext⟩
    · exact h
    · exact validate_of_ofText htext
  constructor
  · rw [ofSettings_of_validate hvalidate]
    split
    · exact .inl ⟨_, rfl⟩
    · next hlarge => exact .inr ⟨rfl, by omega⟩
  intro c₀ past c hstart hrun
  have hv : c.Valid := hrun.valid (valid_of_ofSettings hstart)
  have hb : c.Bounded past.length := hrun.bounded hstart
  have hspent := hv.heap.spent_lt
  refine ⟨?_, ?_, ?_, ?_⟩
  · intro hlength action
    rcases hv.perform_cases action with ⟨told, c', hok, -⟩ | ⟨fault, herror, hhalts⟩
    · exact .inl ⟨told, c', hok⟩
    · obtain ⟨rfl, hasks⟩ := hb.tooLarge_of_halts hv hlength hhalts
      exact .inr ⟨herror, hasks⟩
  · have hheld := hb.held_le
    exact ⟨_, hv.stats_eq (Nat.lt_of_le_of_lt hheld hspent)⟩
  · obtain ⟨w, hw⟩ := hrun.window_on hstart
    have hwindow := hb.window_le
    rw [hw] at hwindow
    have htotal : w.total < Word.limit :=
      Nat.lt_of_le_of_lt (Nat.le_trans (Nat.le_add_left _ _) hwindow) hspent
    obtain ⟨mean, hmean⟩ := Window.exists_mean htotal
    exact ⟨w, mean, hw, hmean⟩
  · exact ⟨_, Word.sum_eq_ok_iff.mpr ⟨rfl, Nat.lt_of_le_of_lt hv.heap.size_le hspent⟩⟩

/-- A texture whose block was given back behind its back still counts in the summary, and deleting it answers. -/
theorem halts_for_memory_only_after_stray_free : ∃ c₀ past c stats told d,
    ofSettings .standard (.ofBudgets .standard) = .ok (.ok c₀) ∧ Run c₀ past c ∧
    past.length + 1 < Word.limit ∧ c.heap.count = 0 ∧ c.perform (.delete ⟨0, 0⟩) = .ok (told, d) ∧
    c.stats = .ok stats ∧ ∃ bytes, c.heap.size = .ok bytes := by
  have hstart : ofSettings .standard (.ofBudgets .standard) =
      .ok (.ok (Context.start .standard (.ofBudgets .standard))) := by rfl
  obtain ⟨past, c, hrun, htest⟩ := Trace.exists_of_reaches perform
    [.generate, .bind ⟨0, 0⟩, .define .abgr8888 4 1, .heap (.free ⟨0x81000000, by decide⟩),
      .endFrame]
    (show Trace.reaches perform (Context.start .standard (.ofBudgets .standard)) _
      (fun past c => past.length = 5 && c.heap.count = 0) = true by decide +kernel)
  simp only [Bool.and_eq_true, decide_eq_true_eq] at htest
  have hlength : past.length + 1 < Word.limit := by
    rw [htest.1]
    decide
  have hvalidate : Settings.standard.validate = .ok () := by rfl
  obtain ⟨-, hall⟩ := halts_for_memory_only (.inl hvalidate)
  obtain ⟨hcalls, ⟨stats, hstats⟩, -, hbytes⟩ := hall _ past c hstart hrun
  rcases hcalls hlength (.delete ⟨0, 0⟩) with ⟨told, d, hdelete⟩ | ⟨-, size, hasks, -⟩
  · exact ⟨_, past, c, stats, told, d, hstart, hrun, hlength, htest.2, hdelete, hstats, hbytes⟩
  · -- Deleting a texture asks for no block.
    cases hasks with
    | renew hrenews => cases hrenews

end Context

end TextureMemory
