import TextureMemory.Metrics.Duration
import TextureMemory.Proofs.Window.Samples

/-!
# The mean of a window of durations

The mean, the shortest and the longest duration of a window are taken of its table, and are those of the
samples that it shows. A sum of durations is a duration as long as its whole seconds are a word.

The sum is divided by the number of the samples as far as half a word holds it (`Duration.mean_eq`). So a
window of fewer than `Duration.countLimit` samples has their mean, rounded down to nanoseconds, which lies
between the shortest of them and the longest. In a larger window the sum is divided by too small a number,
or by zero.
-/

namespace TextureMemory.Duration

open Window

variable {w : Window Duration} {d : Duration} {l : List Duration}

/-- One duration is not longer than another. -/
instance : LE Duration := ⟨fun d e => d.nanoseconds ≤ e.nanoseconds⟩

/-- The nanoseconds of durations, added up. -/
def total (l : List Duration) : Nat := Word.total (l.map nanoseconds)

/-- Durations are added up as long as their sum is one. -/
theorem sum_eq : sum l = if total l < limit then .ok ⟨total l⟩ else .error .overflow := rfl

/-- Whole seconds that are a word, and any nanoseconds beyond them, are a duration. -/
theorem total_lt_limit_iff : total l < limit ↔ total l / perSecond < Word.limit :=
  (Nat.div_lt_iff_lt_mul (by decide)).symm

/-- Durations of no time take none together. -/
theorem total_eq_zero (h : ∀ d ∈ l, d = zero) : total l = 0 := by
  have hle : total l ≤ (l.map nanoseconds).length * 0 := by
    apply Word.total_le
    intro n hn
    obtain ⟨d, hd, rfl⟩ := List.mem_map.mp hn
    rw [h d hd]
    exact Nat.le_refl 0
  exact Nat.le_zero.mp hle

/-! ## The mean of a list -/

/-- Samples that are not shorter than a duration have no shorter mean. -/
theorem le_total_div (hne : l ≠ []) (h : ∀ e ∈ l, d ≤ e) : d ≤ ⟨total l / l.length⟩ := by
  apply (Nat.le_div_iff_mul_le (List.length_pos_iff.mpr hne)).mpr
  rw [Nat.mul_comm, ← List.length_map nanoseconds]
  apply Word.le_total
  intro n hn
  obtain ⟨e, he, rfl⟩ := List.mem_map.mp hn
  exact h e he

/-- Samples that are not longer than a duration have no longer mean. -/
theorem total_div_le (h : ∀ e ∈ l, e ≤ d) : (⟨total l / l.length⟩ : Duration) ≤ d := by
  apply Nat.div_le_of_le_mul
  rw [← List.length_map nanoseconds]
  apply Word.total_le
  intro n hn
  obtain ⟨e, he, rfl⟩ := List.mem_map.mp hn
  exact h e he

/-! ## What is taken of the table -/

/-- The nanoseconds in the table are those of the samples shown. -/
theorem mem_nanoseconds_iff {n : Nat} :
    n ∈ w.samples.toList.map nanoseconds ↔ (⟨n⟩ : Duration) ∈ w.toList := by
  have hperm : w.toList.Perm w.samples.toList := toList_perm
  rw [hperm.mem_iff, List.mem_map]
  constructor
  · rintro ⟨d, hd, rfl⟩
    exact hd
  · exact fun h => ⟨⟨n⟩, h, rfl⟩

/-- The table is not empty where the window shows something. -/
theorem nanoseconds_ne_nil (hne : w.toList ≠ []) : w.samples.toList.map nanoseconds ≠ [] := by
  obtain ⟨d, hd⟩ := List.exists_mem_of_ne_nil _ hne
  exact List.ne_nil_of_mem (mem_nanoseconds_iff.mpr hd)

/-- The shortest duration is one of the samples. -/
theorem shortest_mem (hne : w.toList ≠ []) : shortest w ∈ w.toList := by
  obtain ⟨n, hn⟩ := Option.ne_none_iff_exists'.mp (mt List.min?_eq_none_iff.mp (nanoseconds_ne_nil hne))
  rw [shortest, hn]
  exact mem_nanoseconds_iff.mp (List.min?_mem hn)

/-- The longest duration is one of the samples. -/
theorem longest_mem (hne : w.toList ≠ []) : longest w ∈ w.toList := by
  obtain ⟨n, hn⟩ := Option.ne_none_iff_exists'.mp (mt List.max?_eq_none_iff.mp (nanoseconds_ne_nil hne))
  rw [longest, hn]
  exact mem_nanoseconds_iff.mp (List.max?_mem hn)

/-- No sample is shorter than the shortest. -/
theorem shortest_le (h : d ∈ w.toList) : shortest w ≤ d :=
  List.min?_getD_le_of_mem (mem_nanoseconds_iff.mpr h)

/-- No sample is longer than the longest. -/
theorem le_longest (h : d ∈ w.toList) : d ≤ longest w :=
  List.le_max?_getD_of_mem (mem_nanoseconds_iff.mpr h)

/-- The mean of any window: no time if it shows no samples, and otherwise their sum, if it is a duration,
divided by what half a word holds of their number. -/
theorem mean_eq : mean w =
    if w.toList = [] then .ok zero
    else if limit ≤ total w.toList then .error .overflow
    else if w.toList.length % countLimit = 0 then .error .divisionByZero
    else .ok ⟨total w.toList / (w.toList.length % countLimit)⟩ := by
  have hperm : w.toList.Perm w.samples.toList := toList_perm
  have htotal : total w.toList = total w.samples.toList := Word.total_perm (hperm.map nanoseconds)
  have hnil : w.toList = [] ↔ w.isEmpty = true := by
    rw [isEmpty, Array.isEmpty_iff, ← Array.toList_eq_nil_iff]
    exact ⟨fun h => List.nil_perm.mp (h ▸ hperm), fun h => List.perm_nil.mp (h ▸ hperm)⟩
  have hsize : w.toList.length = w.size := hperm.length_eq.trans Array.length_toList
  rw [mean, hsize, htotal]
  by_cases hempty : w.isEmpty = true
  · rw [if_pos hempty, if_pos (hnil.mpr hempty)]
    rfl
  · rw [if_neg hempty, if_neg (mt hnil.mp hempty)]
    by_cases hfits : total w.samples.toList < limit
    · rw [if_neg (Nat.not_le.mpr hfits), sum_eq, if_pos hfits]
      rfl
    · rw [if_pos (Nat.not_lt.mp hfits), sum_eq, if_neg hfits]
      rfl

/-- The mean of fewer samples than half a word counts is their sum divided by their number. -/
theorem mean_eq_of_lt (hcount : w.toList.length < countLimit)
    (hfits : total w.toList / perSecond < Word.limit) :
    mean w = .ok ⟨total w.toList / w.toList.length⟩ := by
  have hlt : total w.toList < limit := total_lt_limit_iff.mpr hfits
  rw [mean_eq, if_neg (Nat.not_le.mpr hlt), Nat.mod_eq_of_lt hcount]
  by_cases hnil : w.toList = []
  · rw [if_pos hnil, hnil]
    rfl
  · rw [if_neg hnil, if_neg (mt List.length_eq_zero_iff.mp hnil)]

/-- Whole seconds that are no word have no mean. -/
theorem mean_eq_overflow (hlarge : Word.limit ≤ total w.toList / perSecond) :
    mean w = .error .overflow := by
  have hlimit : limit ≤ total w.toList :=
    Nat.not_lt.mp (mt total_lt_limit_iff.mp (Nat.not_lt.mpr hlarge))
  have hnil : w.toList ≠ [] := by
    intro hnil
    rw [hnil] at hlimit
    exact absurd hlimit (by decide)
  rw [mean_eq, if_neg hnil, if_pos hlimit]

/-- The sum of as many samples as half a word counts, or more, is divided by what is left of their
number. -/
theorem mean_eq_of_le (hcount : countLimit ≤ w.toList.length)
    (hfits : total w.toList / perSecond < Word.limit) :
    mean w = if w.toList.length % countLimit = 0 then .error .divisionByZero
      else .ok ⟨total w.toList / (w.toList.length % countLimit)⟩ := by
  have hnil : w.toList ≠ [] := by
    intro hnil
    rw [hnil] at hcount
    exact absurd hcount (by decide)
  rw [mean_eq, if_neg hnil, if_neg (Nat.not_le.mpr (total_lt_limit_iff.mpr hfits))]

/-! ## The mean of the latest samples -/

/-- **The mean of fewer than 2 ^ 32 durations is exact.** Let a window be set up for durations, and let any
samples be added to it, so that it shows the latest of them.

* If the table is too large, setting it up halts the program before there is any sample.
* Otherwise each sample is added. If there are any, the shortest and the longest duration are two of those
  shown, and each of those shown lies between them.
* If the whole seconds of the samples shown, added up, are no word, the mean halts the program.
* If they are a word and fewer than 2 ^ 32 samples are shown, the mean is their sum divided by their number,
  rounded down to nanoseconds: no time if there are none, and otherwise a duration between the shortest and
  the longest.
* If they are a word and 2 ^ 32 samples or more are shown, the sum is divided by their number modulo
  2 ^ 32. So the mean halts the program if the number is a multiple of 2 ^ 32. -/
theorem mean_shown (capacity : Nat) (samples : List Duration) :
    (Extent.limit ≤ max capacity 1 * width →
      ofSamples width capacity samples = .error .tooLarge) ∧
    (max capacity 1 * width < Extent.limit → ∃ w, ofSamples width capacity samples = .ok w ∧
      w.size = (latest (max capacity 1) samples).length ∧
      (samples ≠ [] → shortest w ∈ latest (max capacity 1) samples ∧
        longest w ∈ latest (max capacity 1) samples ∧
        ∀ d ∈ latest (max capacity 1) samples, shortest w ≤ d ∧ d ≤ longest w) ∧
      (Word.limit ≤ total (latest (max capacity 1) samples) / perSecond →
        mean w = .error .overflow) ∧
      (total (latest (max capacity 1) samples) / perSecond < Word.limit →
        (w.size < countLimit → ∃ average, mean w = .ok average ∧
          average = ⟨total (latest (max capacity 1) samples) / w.size⟩ ∧
          (samples = [] → average = zero) ∧
          (samples ≠ [] → shortest w ≤ average ∧ average ≤ longest w)) ∧
        (countLimit ≤ w.size → mean w =
          if w.size % countLimit = 0 then .error .divisionByZero
          else .ok ⟨total (latest (max capacity 1) samples) / (w.size % countLimit)⟩))) := by
  refine ⟨fun hlarge => ?_, fun hfits => ?_⟩
  · rw [ofSamples, ofCapacity, Extent.require, if_neg (Nat.not_lt.mpr hlarge)]
    rfl
  · obtain ⟨w, hw, hf⟩ := ofSamples_filled hfits samples
    have hlist : w.toList = latest (max capacity 1) samples := hf.toList_eq
    have hsize : w.size = w.toList.length := hf.tracks.valid.length_toList.symm
    have hnil : samples ≠ [] → w.toList ≠ [] := hlist ▸ latest_ne_nil (Nat.le_max_right capacity 1)
    rw [← hlist]
    refine ⟨w, hw, hsize, fun hne => ?_, mean_eq_overflow, fun hword =>
      ⟨fun hcount => ?_, fun hcount => ?_⟩⟩
    · exact ⟨shortest_mem (hnil hne), longest_mem (hnil hne),
        fun d hd => ⟨shortest_le hd, le_longest hd⟩⟩
    · rw [hsize] at hcount ⊢
      refine ⟨_, mean_eq_of_lt hcount hword, rfl, ?_, fun hne => ⟨?_, ?_⟩⟩
      · rintro rfl
        have hnone : w.toList = [] := hlist.trans List.drop_nil
        rw [hnone]
        rfl
      · exact le_total_div (hnil hne) fun d hd => shortest_le hd
      · exact total_div_le fun d hd => le_longest hd
    · rw [hsize] at hcount ⊢
      exact mean_eq_of_le hcount hword

/-- The mean of the last three of four samples, 5, 6 and 6 nanoseconds, is rounded down. -/
theorem mean_shown_after_four : max 3 1 * width < Extent.limit ∧
    total (latest (max 3 1) [⟨9⟩, ⟨5⟩, ⟨6⟩, ⟨6⟩]) / perSecond < Word.limit ∧
    ∃ w, ofSamples width 3 [⟨9⟩, ⟨5⟩, ⟨6⟩, ⟨6⟩] = .ok w ∧ mean w = .ok ⟨5⟩ ∧
      shortest w ≤ ⟨5⟩ ∧ (⟨5⟩ : Duration) ≤ longest w := by
  have hfits : max 3 1 * width < Extent.limit := by decide
  have hword : total (latest (max 3 1) [⟨9⟩, ⟨5⟩, ⟨6⟩, ⟨6⟩]) / perSecond < Word.limit := by decide
  obtain ⟨w, hw, hsize, -, -, hmean⟩ :=
    (mean_shown 3 [⟨9⟩, ⟨5⟩, ⟨6⟩, ⟨6⟩]).2 hfits
  have hsize : w.size = 3 := hsize
  obtain ⟨average, heq, hfive, -, hbounds⟩ := (hmean hword).1 (by rw [hsize]; decide)
  have hfive : average = ⟨5⟩ := by
    rw [hfive, hsize]
    rfl
  subst hfive
  exact ⟨hfits, hword, w, hw, heq, hbounds (by simp)⟩

/-- A window of 2 ^ 32 samples of no time has no mean. -/
theorem mean_shown_ne : ¬∀ capacity (samples : List Duration) w,
    ofSamples width capacity samples = .ok w →
    total (latest (max capacity 1) samples) / perSecond < Word.limit →
    ∃ average, mean w = .ok average := by
  intro hall
  obtain ⟨w, hw, hf⟩ := ofSamples_filled (show max countLimit 1 * width < Extent.limit by decide)
    (List.replicate countLimit zero)
  have hcount : max countLimit 1 = countLimit := by decide
  have hlist : w.toList = List.replicate countLimit zero := by
    rw [hf.toList_eq, hcount]
    exact latest_of_length_le (Nat.le_of_eq List.length_replicate)
  have htotal : total w.toList = 0 := total_eq_zero fun d hd =>
    List.eq_of_mem_replicate (hlist ▸ hd)
  have hword : total w.toList / perSecond < Word.limit := by
    rw [htotal]
    decide
  obtain ⟨average, hmean⟩ := hall countLimit _ w hw (hf.toList_eq ▸ hword)
  have hlen : w.toList.length = countLimit := by rw [hlist, List.length_replicate]
  rw [mean_eq_of_le (Nat.le_of_eq hlen.symm) hword, hlen, if_pos (Nat.mod_self countLimit)] at hmean
  cases hmean

end TextureMemory.Duration
