import Mathlib.Data.List.Dedup
import Mathlib.Data.List.DropRight
import Mathlib.Data.List.Lattice
import Mathlib.Data.List.Perm.Subperm

/-! The most recent distinct entries of a log. A repeated entry counts where it
occurred last. Forgetting all but the recent ones loses nothing that a longer
log would have kept, so a bounded memory can be merged with what comes later. -/
namespace SFrameRatchet.Recency
variable {α : Type*}

section Ends
variable (size : ℕ) (log : List α)

theorem length_rtake : (log.rtake size).length = min size log.length := by
  simp only [List.rtake, List.length_drop]
  omega

theorem rtake_sublist : (log.rtake size).Sublist log := List.drop_sublist _ _

theorem rtake_append (first second : List α) :
    (first ++ second).rtake size = first.rtake (size - second.length) ++ second.rtake size := by
  have last : first.length + second.length - size - first.length = second.length - size := by omega
  simp only [List.rtake, List.length_append, List.drop_append, last]
  by_cases within : second.length ≤ size
  · rw [show first.length + second.length - size = first.length - (size - second.length) by omega]
  · have cut : first.length ≤ first.length + second.length - size := by omega
    have whole : first.length ≤ first.length - (size - second.length) := by omega
    rw [List.drop_eq_nil_of_le cut, List.drop_eq_nil_of_le whole]

variable {size log}

theorem nodup_append_singleton {entry : α} (nodup : log.Nodup) (fresh : entry ∉ log) : (log ++ [entry]).Nodup := by
  rw [← List.concat_eq_append]
  exact List.Nodup.concat fresh nodup

theorem rtake_of_length_le (short : log.length ≤ size) : log.rtake size = log := by
  rw [List.rtake, Nat.sub_eq_zero_of_le short, List.drop_zero]

/-- The last entries of what is remembered are the last ones of the log. -/
theorem rtake_rtake {fewer : ℕ} (within : fewer ≤ size) : (log.rtake size).rtake fewer = log.rtake fewer := by
  simp only [List.rtake, List.length_drop, List.drop_drop]
  congr 1
  omega

/-- What is remembered after a new entry follows from what was remembered before. -/
theorem rtake_concat {entry : α} :
    (log ++ [entry]).rtake size = (log.rtake size ++ [entry]).rtake size := by
  rw [rtake_append, rtake_append, List.length_singleton, rtake_rtake (Nat.sub_le _ _)]

/-- The newest entry is remembered. -/
theorem mem_rtake_concat {entry : α} (positive : size ≠ 0) : entry ∈ (log ++ [entry]).rtake size := by
  have last : [entry].rtake size = [entry] := rtake_of_length_le (Nat.one_le_iff_ne_zero.mpr positive)
  rw [rtake_append, last]
  simp

end Ends

variable [DecidableEq α]

/-- The last `size` distinct entries, oldest first. -/
def recent (size : ℕ) (log : List α) : List α := log.dedup.rtake size

/-- What has been logged after the last occurrence of an entry. -/
def newer (entry : α) (log : List α) : List α := log.rtakeWhile (· ≠ entry)

/-! ## Distinct entries -/

/-- The distinct entries of two logs: those of the second, after the entries
that only the first one has. -/
theorem dedup_append (first second : List α) :
    (first ++ second).dedup = first.dedup.filter (· ∉ second) ++ second.dedup := by
  induction first with
  | nil => simp
  | cons entry rest ih =>
    by_cases early : entry ∈ rest
    · rw [List.dedup_cons_of_mem early, List.cons_append,
        List.dedup_cons_of_mem (List.mem_append_left _ early), ih]
    · rw [List.dedup_cons_of_notMem early, List.cons_append]
      by_cases later : entry ∈ second
      · rw [List.dedup_cons_of_mem (List.mem_append_right _ later), List.filter_cons_of_neg (by simpa using later), ih]
      · rw [List.dedup_cons_of_notMem (by simp [early, later]), List.filter_cons_of_pos (by simpa using later), ih,
          List.cons_append]

/-! ## Recent entries -/

variable {size : ℕ} {log : List α} {entry : α}

theorem recent_nodup : (recent size log).Nodup := (List.nodup_dedup log).sublist (rtake_sublist _ _)

theorem recent_length : (recent size log).length ≤ size := by
  rw [recent, length_rtake]
  exact Nat.min_le_left _ _

theorem mem_of_recent (member : entry ∈ recent size log) : entry ∈ log :=
  List.mem_dedup.mp ((rtake_sublist _ _).subset member)

/-- A log without repetitions that fits is recent as a whole. -/
theorem recent_of_nodup (nodup : log.Nodup) (fits : log.length ≤ size) : recent size log = log := by
  rw [recent, nodup.dedup, rtake_of_length_le fits]

theorem recent_recent : recent size (recent size log) = recent size log :=
  recent_of_nodup recent_nodup recent_length

/-- **Merging.** What follows a log may as well follow its recent entries. -/
theorem recent_append (size : ℕ) (log later : List α) :
    recent size (recent size log ++ later) = recent size (log ++ later) := by
  change (recent size log ++ later).dedup.rtake size = (log ++ later).dedup.rtake size
  rw [dedup_append, dedup_append, recent_nodup.dedup, rtake_append, rtake_append]
  congr 1
  by_cases fits : log.dedup.length ≤ size
  · rw [recent, rtake_of_length_le fits]
  · -- what the later log repeats of the recent entries is no more than it adds itself
    obtain ⟨old, split⟩ : ∃ old, log.dedup = old ++ recent size log :=
      ⟨_, (List.take_append_drop (log.dedup.length - size) log.dedup).symm⟩
    have full : (recent size log).length = size := by
      rw [recent, length_rtake]
      omega
    have repeated : ((recent size log).filter (· ∈ later)).length ≤ later.dedup.length := by
      refine (List.Nodup.subperm (recent_nodup.filter _) fun other member => ?_).length_le
      exact List.mem_dedup.mpr (by simpa using (List.mem_filter.mp member).2)
    have parts := List.length_eq_length_filter_add (l := recent size log) (· ∈ later)
    have enough : size - later.dedup.length ≤ ((recent size log).filter (· ∉ later)).length := by
      simp only [decide_not] at parts ⊢
      omega
    rw [split, List.filter_append, rtake_append, Nat.sub_eq_zero_of_le enough, List.rtake_zero, List.nil_append]

/-- **Absorption.** An older log adds nothing to what is recent in a log that has
all of it. -/
theorem recent_absorb {older : List α} (known : older ⊆ log) :
    recent size (older ++ recent size log) = recent size log := by
  change (older ++ recent size log).dedup.rtake size = _
  rw [dedup_append, recent_nodup.dedup, rtake_append, rtake_of_length_le recent_length]
  by_cases full : (recent size log).length = size
  · rw [full, Nat.sub_self, List.rtake_zero, List.nil_append]
  · have whole : recent size log = log.dedup := by
      have length := length_rtake size log.dedup
      rw [recent] at full ⊢
      exact rtake_of_length_le (by omega)
    have nothing : older.dedup.filter (· ∉ recent size log) = [] := by
      refine List.filter_eq_nil_iff.mpr fun other member => ?_
      simpa [whole] using known (List.mem_dedup.mp member)
    rw [nothing, List.rtake_nil, List.nil_append]

/-- What is recent in two logs: what is recent in the second, after what the first
has to itself, as far as there is room. -/
theorem recent_append_eq (size : ℕ) (log later : List α) : recent size (log ++ later) =
    (log.dedup.filter (· ∉ later)).rtake (size - later.dedup.length) ++ recent size later := by
  rw [recent, dedup_append, rtake_append, recent]

/-- What precedes a log may as well precede its recent entries. -/
theorem recent_append_recent (size : ℕ) (log later : List α) :
    recent size (log ++ recent size later) = recent size (log ++ later) := by
  by_cases fits : later.dedup.length ≤ size
  · have whole : recent size later = later.dedup := rtake_of_length_le fits
    simp only [recent_append_eq, whole, List.dedup_idem, List.mem_dedup]
    rw [recent, List.dedup_idem, ← recent, whole]
  · have full : (recent size later).dedup.length = size := by
      rw [recent_nodup.dedup, recent, length_rtake]
      omega
    rw [recent_append_eq, recent_append_eq, full, Nat.sub_self, Nat.sub_eq_zero_of_le (by omega), List.rtake_zero,
      List.rtake_zero, recent_recent]

/-- **Repetition.** A log may be followed by its own end. -/
theorem dedup_append_suffix {rest : List α} (nodup : log.Nodup) {later : List α}
    (last : rest <:+ log.filter (· ∉ later)) : (log ++ rest ++ later).dedup = (log ++ later).dedup := by
  obtain ⟨first, split⟩ := last
  have own : (first ++ rest).Nodup := split ▸ nodup.filter _
  obtain ⟨-, distinct, apart⟩ := List.nodup_append.mp own
  have new (entry : α) (member : entry ∈ rest) : entry ∉ later := by
    have kept : entry ∈ log.filter (· ∉ later) := split ▸ List.mem_append_right _ member
    simpa using (List.mem_filter.mp kept).2
  have kept : rest.filter (· ∉ later) = rest := List.filter_eq_self.mpr (by simpa using new)
  have before : first.filter (· ∉ rest) = first := List.filter_eq_self.mpr fun entry member => by
    simpa using fun again => apart entry member entry again rfl
  have none : rest.filter (· ∉ rest) = [] := List.filter_eq_nil_iff.mpr (by simp)
  rw [dedup_append, dedup_append log later, dedup_append log rest, nodup.dedup, distinct.dedup, List.filter_append,
    List.filter_comm, kept, ← split, List.filter_append, before, none, List.append_nil]

/-- What is recent in a log repeats what is at the end of another log, and then
adds what is new. -/
theorem recent_repeat {older later seen : List α} (nodup : seen.Nodup)
    (last : (recent size (older ++ later)).filter (· ∉ later) <:+ seen.filter (· ∉ later)) :
    recent size (seen ++ recent size (older ++ later)) = recent size (seen ++ later) := by
  have parts := recent_append_eq size older later
  generalize own : (older.dedup.filter (· ∉ later)).rtake (size - later.dedup.length) = rest at parts
  have sub : rest.Sublist (older.dedup.filter (· ∉ later)) := own ▸ rtake_sublist _ _
  have distinct : rest.Nodup := ((List.nodup_dedup older).filter _).sublist sub
  have apart : rest.filter (· ∉ later) = rest := List.filter_eq_self.mpr fun entry member =>
    (List.mem_filter.mp (sub.subset member)).2
  have short : rest.length ≤ size - later.dedup.length := by
    rw [← own, length_rtake]
    exact Nat.min_le_left _ _
  have again : recent size (rest ++ later) = recent size (older ++ later) := by
    rw [parts, recent_append_eq, distinct.dedup, apart, rtake_of_length_le short]
  rw [parts, List.filter_append, apart, List.filter_eq_nil_iff.mpr fun entry member => by
    simpa using mem_of_recent member, List.append_nil] at last
  rw [← again, recent_append_recent, ← List.append_assoc, recent, dedup_append_suffix nodup last, ← recent]

/-- A new entry pushes the oldest one out of a full memory. -/
theorem recent_concat (fresh : entry ∉ recent size log) :
    recent size (log ++ [entry]) = (recent size log ++ [entry]).rtake size := by
  rw [← recent_append, recent, (nodup_append_singleton recent_nodup fresh).dedup]

/-- What a log was before and after the last occurrence of an entry. -/
theorem split_newer (member : entry ∈ log) :
    ∃ older, log = older ++ entry :: newer entry log ∧ entry ∉ newer entry log := by
  induction log using List.reverseRecOn with
  | nil => cases member
  | append_singleton rest last ih =>
    rw [newer, List.rtakeWhile_concat]
    by_cases own : last = entry
    · subst own
      exact ⟨rest, by simp⟩
    · have early : entry ∈ rest := by
        rcases List.mem_append.mp member with early | same
        · exact early
        · exact absurd (List.mem_singleton.mp same).symm own
      obtain ⟨older, split, apart⟩ := ih early
      refine ⟨older, ?_, ?_⟩
      · simp only [ne_eq, own, not_false_eq_true, decide_true, ↓reduceIte]
        nth_rewrite 1 [split]
        simp [newer]
      · simpa [own, Ne.symm own, newer] using apart

/-- An entry is forgotten only for as many newer ones as the memory holds. -/
theorem newer_of_forgotten (member : entry ∈ log) (forgotten : entry ∉ recent size log) :
    size ≤ (newer entry log).dedup.length := by
  obtain ⟨older, split, apart⟩ := split_newer member
  by_contra few
  apply forgotten
  have last : (older ++ [entry]).dedup = older.dedup.filter (· ∉ [entry]) ++ [entry] := by
    rw [dedup_append]
    rfl
  rw [split, recent, show older ++ entry :: newer entry log = (older ++ [entry]) ++ newer entry log by simp,
    dedup_append, last, List.filter_append, rtake_append, List.filter_cons_of_pos (by simpa using apart),
    List.filter_nil, rtake_append]
  have room : size - (newer entry log).dedup.length - [entry].length + 1 = size - (newer entry log).dedup.length := by
    simp only [List.length_singleton]
    omega
  rw [← room, show [entry] = [] ++ [entry] from rfl, List.rtake_concat_succ]
  simp

/-- What is newer than an entry in a longer log was newer before, or has come later. -/
theorem newer_append (entry : α) (log later : List α) : newer entry (log ++ later) <:+ newer entry log ++ later := by
  induction later using List.reverseRecOn with
  | nil => simp
  | append_singleton rest last ih =>
    rw [← List.append_assoc, newer, List.rtakeWhile_concat, ← newer, ← List.append_assoc]
    split
    · obtain ⟨older, split⟩ := ih
      exact ⟨older, by rw [← split, List.append_assoc]⟩
    · exact List.nil_suffix

/-- **Forgetting.** An entry of a log that is forgotten at some later time has been
followed since by as many others as the memory holds. -/
theorem forgotten_since {all : List α} (member : entry ∈ log) {longer : List α} (grown : log <+: longer)
    (until_ : longer <+: all) (forgotten : entry ∉ recent size longer) :
    size ≤ ((newer entry log ++ all.drop log.length).filter (· ≠ entry)).dedup.length := by
  obtain ⟨later, rfl⟩ := grown
  obtain ⟨rest, rfl⟩ := until_
  have there : entry ∈ log ++ later := List.mem_append_left _ member
  obtain ⟨-, -, apart⟩ := split_newer there
  refine (newer_of_forgotten there forgotten).trans
    (List.Nodup.subperm (List.nodup_dedup _) fun other new => ?_).length_le
  rw [List.mem_dedup] at new ⊢
  rw [List.append_assoc, List.drop_left]
  refine List.mem_filter.mpr ⟨?_, by simpa using fun same : other = entry => apart (same ▸ new)⟩
  rcases List.mem_append.mp ((newer_append entry log later).subset new) with early | late
  · exact List.mem_append_left _ early
  · exact List.mem_append_right _ (List.mem_append_left _ late)

/-! ## Bounded memories that refuse what they remember -/

omit [DecidableEq α] in
/-- No entry is logged while it is among the last ones. -/
def Spaced (size : ℕ) (log : List α) : Prop :=
  ∀ before entry after, log = before ++ entry :: after → entry ∉ before.rtake size

omit [DecidableEq α] in
theorem spaced_concat (spaced : Spaced size log) (fresh : entry ∉ log.rtake size) :
    Spaced size (log ++ [entry]) := by
  intro before other after split
  rcases List.append_eq_append_iff.mp split with ⟨rest, rfl, single⟩ | ⟨rest, rfl, single⟩
  · cases rest with
    | nil =>
      cases single
      simpa using fresh
    | cons first rest => simp at single
  · cases rest with
    | nil =>
      cases single
      simpa using fresh
    | cons first rest =>
      cases single
      exact spaced before other rest rfl

omit [DecidableEq α] in
theorem spaced_of_append {later : List α} (spaced : Spaced size (log ++ later)) : Spaced size log := by
  intro before other after split
  exact spaced before other (after ++ later) (by simp [split])

omit [DecidableEq α] in
/-- The last entries of such a log are distinct. -/
theorem spaced_rtake_nodup (spaced : Spaced size log) : (log.rtake size).Nodup := by
  induction log using List.reverseRecOn with
  | nil => simp
  | append_singleton earlier entry ih =>
    have fresh : entry ∉ earlier.rtake size := spaced earlier entry [] rfl
    rw [rtake_concat]
    exact (nodup_append_singleton (ih (spaced_of_append spaced)) fresh).sublist (rtake_sublist _ _)

/-- Between two occurrences of an entry there are as many distinct others as are
remembered. -/
theorem spaced_between {before between after : List α} (spaced : Spaced size log)
    (split : log = before ++ entry :: (between ++ entry :: after)) :
    size ≤ (between.filter (· ≠ entry)).dedup.length := by
  subst split
  have forgotten := spaced (before ++ entry :: between) entry after (by simp)
  have enough : size ≤ between.length := by
    by_contra few
    apply forgotten
    rw [rtake_append]
    apply List.mem_append_right
    rw [rtake_of_length_le (by rw [List.length_cons]; omega)]
    exact List.mem_cons_self
  have last : (before ++ entry :: between).rtake size = between.rtake size := by
    rw [← List.singleton_append, ← List.append_assoc, rtake_append, Nat.sub_eq_zero_of_le enough]
    simp [List.rtake]
  have distinct : (between.rtake size).Nodup := by
    rw [← last]
    apply spaced_rtake_nodup
    rw [← List.cons_append, ← List.append_assoc] at spaced
    exact spaced_of_append spaced
  have long : (between.rtake size).length = size := by rw [length_rtake, min_eq_left enough]
  have others : between.rtake size ⊆ (between.filter (· ≠ entry)).dedup := by
    intro other member
    rw [List.mem_dedup, List.mem_filter]
    refine ⟨(rtake_sublist _ _).subset member, ?_⟩
    rw [decide_eq_true_eq]
    rintro rfl
    exact forgotten (last ▸ member)
  calc size = (between.rtake size).length := long.symm
    _ ≤ _ := (distinct.subperm others).length_le

/-- An entry that is logged twice is followed by as many others as are remembered. -/
theorem spaced_repeated (spaced : Spaced size log) (twice : 2 ≤ log.count entry) :
    size ≤ (log.filter (· ≠ entry)).length := by
  obtain ⟨before, later, split, absent⟩ :=
    List.eq_append_cons_of_mem (List.count_pos_iff.mp (by omega : 0 < log.count entry))
  subst split
  have again : entry ∈ later := by
    rw [List.count_append, List.count_eq_zero.mpr absent, List.count_cons_self] at twice
    exact List.count_pos_iff.mp (by omega)
  obtain ⟨between, after, rfl⟩ := List.append_of_mem again
  have within : between.Sublist (before ++ entry :: (between ++ entry :: after)) :=
    ((List.sublist_append_left _ _).trans (List.sublist_cons_self _ _)).trans (List.sublist_append_right _ _)
  calc size ≤ (between.filter (· ≠ entry)).dedup.length := spaced_between spaced rfl
    _ ≤ (between.filter (· ≠ entry)).length := (List.dedup_sublist _).length_le
    _ ≤ _ := (within.filter _).length_le

end SFrameRatchet.Recency
