import TextureMemory.Fault

/-!
# Machine words

Sizes, addresses, counts and frame numbers are natural numbers here, and `Word.limit` is the first
one that a machine word cannot hold. An operation whose result would leave the range either says so
by an `Option`, or halts the program.
-/

namespace TextureMemory.Word

/-- The number of machine words, and so the first natural number that is none. -/
abbrev limit : Nat := Nat.pow 2 64

/-- The sum of two words. -/
def add (a b : Nat) : Except Fault Nat :=
  if a + b < limit then .ok (a + b) else .error .overflow

/-- The difference of two words. -/
def sub (a b : Nat) : Except Fault Nat :=
  if b ≤ a then .ok (a - b) else .error .overflow

/-- The sum of a list of natural numbers. -/
def total (l : List Nat) : Nat := l.foldr (· + ·) 0

/-- The sum of a list of words. Words are never negative, so a partial sum passes the limit only if
the whole sum does, and the order of the summands does not matter. -/
def sum (l : List Nat) : Except Fault Nat :=
  if total l < limit then .ok (total l) else .error .overflow

/-- The sum of two words, if it is one. -/
def add? (a b : Nat) : Option Nat :=
  if a + b < limit then some (a + b) else none

/-- The product of two words, if it is one. -/
def mul? (a b : Nat) : Option Nat :=
  if a * b < limit then some (a * b) else none

variable {a b c : Nat} {l l' : List Nat}

/-- Words are added as numbers are, unless the sum is no word. -/
theorem add_eq_ok_iff : add a b = .ok c ↔ c = a + b ∧ a + b < limit := by
  unfold add; split <;> simp [*, eq_comm]

/-- Words are subtracted unless the difference falls below zero. -/
theorem sub_eq_ok_iff : sub a b = .ok c ↔ c + b = a := by
  unfold sub; split <;> simp <;> omega

/-- A list of words has its total as the sum, unless that is no word. -/
theorem sum_eq_ok_iff : sum l = .ok c ↔ c = total l ∧ total l < limit := by
  unfold sum; split <;> simp [*, eq_comm]

@[simp] theorem total_nil : total [] = 0 := rfl

@[simp] theorem total_cons : total (a :: l) = a + total l := rfl

/-- The total of two lists, one behind the other, is that of both. -/
theorem total_append : total (l ++ l') = total l + total l' := by
  induction l with
  | nil => simp
  | cons a l ih => simp [ih, Nat.add_assoc]

/-- The order of a list does not matter for its total. -/
theorem total_perm (h : l.Perm l') : total l = total l' := by
  induction h with
  | nil => rfl
  | cons a _ ih => rw [total_cons, total_cons, ih]
  | swap a b l =>
    simp only [total_cons]
    omega
  | trans _ _ ih ih' => exact ih.trans ih'

/-- Numbers up to a bound add up to at most the bound for each of them. -/
theorem total_le {bound : Nat} (h : ∀ n ∈ l, n ≤ bound) : total l ≤ l.length * bound := by
  induction l with
  | nil => exact Nat.zero_le _
  | cons n rest ih =>
    have hn : n ≤ bound := h n List.mem_cons_self
    have hrest := ih fun m hm => h m (List.mem_cons_of_mem _ hm)
    rw [total_cons, List.length_cons, Nat.add_mul, Nat.one_mul]
    omega

/-- Numbers from a bound on add up to at least the bound for each of them. -/
theorem le_total {bound : Nat} (h : ∀ n ∈ l, bound ≤ n) : l.length * bound ≤ total l := by
  induction l with
  | nil => exact Nat.le_of_eq (Nat.zero_mul bound)
  | cons n rest ih =>
    have hn : bound ≤ n := h n List.mem_cons_self
    have hrest := ih fun m hm => h m (List.mem_cons_of_mem _ hm)
    rw [total_cons, List.length_cons, Nat.add_mul, Nat.one_mul]
    omega

/-- A checked sum is that of the numbers, where it is a word. -/
theorem add?_eq_some_iff : add? a b = some c ↔ c = a + b ∧ a + b < limit := by
  unfold add?; split <;> simp [*, eq_comm]

/-- A checked product is that of the numbers, where it is a word. -/
theorem mul?_eq_some_iff : mul? a b = some c ↔ c = a * b ∧ a * b < limit := by
  unfold mul?; split <;> simp [*, eq_comm]

end TextureMemory.Word
