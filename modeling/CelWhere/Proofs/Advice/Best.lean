import CelWhere.Index.Best
import Mathlib.Data.List.Induction
import Mathlib.Data.List.Nodup

/-! # Which entries are kept

Entries compete for their key, one after the other. A later entry takes the place of an earlier one
only if it ranks higher, so the first entry of the highest rank is kept, and its key has no other
one.

* `Index.Best` — an entry of a list wins its key;
* `Index.mem_keepBestOf` — the entries that are kept are those that win;
* `Index.nodup_keepBestOf` — one entry is kept for each key;
* `Index.keepBestOf_of_nodup` — where no entries share a key, all are kept. -/

namespace CelWhere.Index

variable {α : Type} {key : α → String} {rank : α → Nat} {kept entries : List α} {entry : α}

/-! ## One more entry -/

/-- An entry adds its key, unless the key is there already. -/
theorem keys_keepBest (entry : α) (kept : List α) :
    (keepBest key rank entry kept).map key =
      if key entry ∈ kept.map key then kept.map key else kept.map key ++ [key entry] := by
  induction kept with
  | nil => simp
  | cons first rest ih =>
    rw [keepBest]
    by_cases same : key first = key entry
    · by_cases lower : rank first < rank entry
      · simp [same, lower]
      · simp [same, lower]
    · have other : key entry ≠ key first := fun equal => same equal.symm
      rw [if_neg same, List.map_cons, ih, List.map_cons]
      by_cases known : key entry ∈ rest.map key
      · rw [if_pos known, if_pos (List.mem_cons_of_mem _ known)]
      · rw [if_neg known, if_neg (by simpa [other] using known), List.cons_append]

/-- Keys stay distinct. -/
theorem nodup_keepBest (entry : α) (distinct : (kept.map key).Nodup) :
    ((keepBest key rank entry kept).map key).Nodup := by
  rw [keys_keepBest]
  split
  · exact distinct
  next absent => exact List.nodup_append.mpr ⟨distinct, by simp, by simpa using absent⟩

/-- What is kept with one more entry: what was kept and does not rank lower than the entry of its
key, and the entry if it ranks higher than what was kept. -/
theorem mem_keepBest {other : α} (distinct : (kept.map key).Nodup) :
    other ∈ keepBest key rank entry kept ↔
      (other ∈ kept ∧ (key other = key entry → rank entry ≤ rank other)) ∨
        (other = entry ∧ ∀ rival ∈ kept, key rival = key entry → rank rival < rank entry) := by
  induction kept with
  | nil => simp
  | cons first rest ih =>
    obtain ⟨absent, restDistinct⟩ := List.nodup_cons.mp distinct
    rw [keepBest]
    by_cases same : key first = key entry
    · -- The rest has no entry of that key, so the first one decides.
      have apart : ∀ rival ∈ rest, key rival ≠ key entry := fun rival member equal =>
        absent (List.mem_map.mpr ⟨rival, member, equal.trans same.symm⟩)
      rw [if_pos same]
      by_cases lower : rank first < rank entry
      · rw [if_pos lower]
        grind
      · rw [if_neg lower]
        grind
    · rw [if_neg same, List.mem_cons, ih restDistinct]
      grind

/-- An entry with a key of its own is put at the end. -/
theorem keepBest_of_forall_ne (absent : ∀ rival ∈ kept, key rival ≠ key entry) :
    keepBest key rank entry kept = kept ++ [entry] := by
  induction kept with
  | nil => rfl
  | cons first rest ih =>
    rw [keepBest, if_neg (absent first (.head _)),
      ih fun rival member => absent rival (.tail _ member)]
    rfl

/-! ## Any number of entries -/

/-- One entry is kept for each key. -/
theorem nodup_keepBestOf (entries : List α) (distinct : (kept.map key).Nodup) :
    ((keepBestOf key rank entries kept).map key).Nodup := by
  induction entries generalizing kept with
  | nil => exact distinct
  | cons entry rest ih => exact ih (nodup_keepBest entry distinct)

/-- An entry of a list wins its key: the entries of that key before it rank lower, and those behind
it do not rank higher. -/
def Best (key : α → String) (rank : α → Nat) (entries : List α) (entry : α) : Prop :=
  ∃ before after, entries = before ++ entry :: after ∧
    (∀ other ∈ before, key other = key entry → rank other < rank entry) ∧
    ∀ other ∈ after, key other = key entry → rank other ≤ rank entry

namespace Best

variable {entries : List α} {entry other : α}

/-- What wins is an entry. -/
theorem mem (best : Best key rank entries entry) : entry ∈ entries := by
  obtain ⟨before, after, rfl, -, -⟩ := best
  simp

/-- No entry of the key ranks higher than the one that wins. -/
theorem rank_le (best : Best key rank entries entry) (member : other ∈ entries)
    (same : key other = key entry) :
    rank other ≤ rank entry := by
  obtain ⟨before, after, rfl, earlier, later⟩ := best
  rcases List.mem_append.mp member with inBefore | fromHere
  · exact Nat.le_of_lt (earlier other inBefore same)
  · rcases List.mem_cons.mp fromHere with rfl | inAfter
    · exact Nat.le_refl _
    · exact later other inAfter same

/-- With one more entry, an entry wins if it has won before and does not rank lower than the new one
of its key, or if it is the new one and ranks higher than all entries of its key. -/
theorem append_singleton_iff {latest : α} :
    Best key rank (entries ++ [latest]) entry ↔
      (Best key rank entries entry ∧ (key entry = key latest → rank latest ≤ rank entry)) ∨
        (entry = latest ∧ ∀ rival ∈ entries, key rival = key latest →
          rank rival < rank latest) := by
  constructor
  · rintro ⟨before, after, split, earlier, later⟩
    -- Either nothing stands behind the entry, or the new entry is the last one there.
    rcases List.eq_nil_or_concat after with rfl | ⟨between, last, rfl⟩
    · obtain ⟨rfl, lasts⟩ := List.append_inj' split rfl
      obtain rfl : latest = entry := by simpa using lasts
      exact .inr ⟨rfl, earlier⟩
    · have split : entries ++ [latest] = (before ++ entry :: between) ++ [last] :=
        by simpa using split
      obtain ⟨rfl, lasts⟩ := List.append_inj' split rfl
      obtain rfl : latest = last := by simpa using lasts
      refine .inl ⟨⟨before, between, rfl, earlier,
        fun other member => later other (by simp [member])⟩, ?_⟩
      intro same
      exact later latest (by simp) same.symm
  · rintro (⟨⟨before, after, rfl, earlier, later⟩, notLower⟩ | ⟨rfl, higher⟩)
    · refine ⟨before, after ++ [latest], by simp, earlier, ?_⟩
      intro other member same
      rcases List.mem_append.mp member with inAfter | isLatest
      · exact later other inAfter same
      · obtain rfl := List.mem_singleton.mp isLatest
        exact notLower same.symm
    · exact ⟨entries, [], rfl, higher, by simp⟩

end Best

/-- Every key of an entry is won. -/
theorem exists_best (member : entry ∈ entries) :
    ∃ winner, Best key rank entries winner ∧ key winner = key entry := by
  induction entries using List.reverseRecOn generalizing entry with
  | nil => simp at member
  | append_singleton rest latest ih =>
    -- The new entry is compared with what has won its key before, if anything has.
    by_cases beaten : ∃ rival ∈ rest, key rival = key latest ∧ rank latest ≤ rank rival
    · obtain ⟨rival, isRival, rivalKey, notLower⟩ := beaten
      have known : ∃ old ∈ rest, key old = key entry := by
        rcases List.mem_append.mp member with inRest | isLatest
        · exact ⟨entry, inRest, rfl⟩
        · obtain rfl := List.mem_singleton.mp isLatest
          exact ⟨rival, isRival, rivalKey⟩
      obtain ⟨old, isOld, oldKey⟩ := known
      obtain ⟨winner, best, winnerKey⟩ := ih isOld
      refine ⟨winner, Best.append_singleton_iff.mpr (.inl ⟨best, ?_⟩), winnerKey.trans oldKey⟩
      intro same
      exact Nat.le_trans notLower (best.rank_le isRival (rivalKey.trans same.symm))
    · have higher : ∀ rival ∈ rest, key rival = key latest → rank rival < rank latest := by
        intro rival isRival same
        by_contra notHigher
        exact beaten ⟨rival, isRival, same, Nat.le_of_not_lt notHigher⟩
      by_cases same : key entry = key latest
      · exact ⟨latest, Best.append_singleton_iff.mpr (.inr ⟨rfl, higher⟩), same.symm⟩
      · have inRest : entry ∈ rest := by
          rcases List.mem_append.mp member with inRest | isLatest
          · exact inRest
          · obtain rfl := List.mem_singleton.mp isLatest
            exact absurd rfl same
        obtain ⟨winner, best, winnerKey⟩ := ih inRest
        refine ⟨winner, Best.append_singleton_iff.mpr (.inl ⟨best, ?_⟩), winnerKey⟩
        intro clash
        exact absurd (winnerKey.symm.trans clash) same

/-- **What is kept.** The entries that are kept are those that win their keys. -/
theorem mem_keepBestOf :
    entry ∈ keepBestOf key rank entries [] ↔ Best key rank entries entry := by
  induction entries using List.reverseRecOn generalizing entry with
  | nil => simp [Best]
  | append_singleton rest latest ih =>
    have distinct : ((keepBestOf key rank rest []).map key).Nodup := nodup_keepBestOf rest (by simp)
    rw [keepBestOf_append, keepBestOf_cons, keepBestOf_nil, mem_keepBest distinct,
      Best.append_singleton_iff, ih]
    -- To rank higher than what was kept is to rank higher than all entries before.
    refine or_congr_right (and_congr_right fun _ =>
      ⟨fun higher rival member same => ?_, fun higher rival member same => ?_⟩)
    · obtain ⟨winner, best, winnerKey⟩ : ∃ winner, Best key rank rest winner ∧
          key winner = key rival := exists_best member
      have above := higher winner (ih.mpr best) (winnerKey.trans same)
      exact Nat.lt_of_le_of_lt (best.rank_le member winnerKey.symm) above
    · exact higher rival (ih.mp member).mem same

/-- Two entries that win the same key are one. -/
theorem Best.eq_of_key_eq {other : α} (best : Best key rank entries entry)
    (otherBest : Best key rank entries other) (same : key entry = key other) : entry = other := by
  have distinct : ((keepBestOf key rank entries []).map key).Nodup :=
    nodup_keepBestOf entries (by simp)
  exact List.inj_on_of_nodup_map distinct (mem_keepBestOf.mpr best)
    (mem_keepBestOf.mpr otherBest) same

/-- Where no entries share a key, all are kept in their order. -/
theorem keepBestOf_of_nodup (distinct : ((kept ++ entries).map key).Nodup) :
    keepBestOf key rank entries kept = kept ++ entries := by
  induction entries generalizing kept with
  | nil => simp
  | cons entry rest ih =>
    have absent : ∀ rival ∈ kept, key rival ≠ key entry := by
      intro rival member same
      rw [List.map_append, List.nodup_append] at distinct
      exact distinct.2.2 _ (List.mem_map_of_mem member) _ (by simp) same
    rw [keepBestOf_cons, keepBest_of_forall_ne absent, ih (by simpa using distinct)]
    simp

end CelWhere.Index
