import Mathlib.Data.List.Induction
import Mathlib.Data.List.Nodup
import SyntaxPaint.Text.Dictionary
/-!
# Entries of a dictionary

An insertion puts one entry in and takes out the one of its key. So a dictionary made from entries
with different keys holds just these.
-/
namespace SyntaxPaint
namespace Dictionary

variable {key value : String} {entry : String × String} {entries : List (String × String)}

theorem mem_insertEntry_iff (h : entries.Pairwise fun a b => a.1 < b.1) :
    entry ∈ insertEntry key value entries ↔
      entry = (key, value) ∨ entry ∈ entries ∧ entry.1 ≠ key := by
  induction entries with
  | nil => simp [insertEntry]
  | cons head rest ih =>
    obtain ⟨hhead, hrest⟩ := List.pairwise_cons.mp h
    rw [insertEntry]
    split_ifs with hbefore hsame
    · -- All keys that are there come behind the new one.
      have hother : ∀ e ∈ head :: rest, e.1 ≠ key := by
        intro e he
        have hlt : key < e.1 := by
          rcases List.mem_cons.mp he with rfl | he
          · exact hbefore
          · exact String.lt_trans hbefore (hhead e he)
        exact (String.ne_of_lt hlt).symm
      rw [List.mem_cons]
      exact or_congr_right ⟨fun he => ⟨he, hother entry he⟩, And.left⟩
    · have hother : ∀ e ∈ rest, e.1 ≠ key := fun e he =>
        hsame ▸ (String.ne_of_lt (hhead e he)).symm
      rw [List.mem_cons, List.mem_cons]
      refine or_congr_right ⟨fun he => ⟨.inr he, hother entry he⟩, ?_⟩
      rintro ⟨rfl | he, hne⟩
      · exact absurd hsame.symm hne
      · exact he
    · rw [List.mem_cons, List.mem_cons, ih hrest]
      have hhead : entry = head → entry.1 ≠ key := by
        rintro rfl
        exact Ne.symm hsame
      tauto

theorem mem_insert_iff (d : Dictionary) : entry ∈ (d.insert key value).entries ↔
    entry = (key, value) ∨ entry ∈ d.entries ∧ entry.1 ≠ key := mem_insertEntry_iff d.ascending

theorem mem_ofList_iff (h : (entries.map Prod.fst).Nodup) :
    entry ∈ (ofList entries).entries ↔ entry ∈ entries := by
  induction entries using List.reverseRecOn with
  | nil => simp [ofList, empty]
  | append_singleton front last ih =>
    rw [List.map_append, List.nodup_append] at h
    obtain ⟨hfront, -, hlast⟩ := h
    have hne : entry ∈ front → entry.1 ≠ last.1 := fun he =>
      hlast entry.1 (List.mem_map_of_mem he) last.1 (by simp)
    have hinsert : ofList (front ++ [last]) = (ofList front).insert last.1 last.2 := by
      simp [ofList]
    rw [hinsert, mem_insert_iff, ih hfront, List.mem_append, List.mem_singleton]
    tauto

theorem insertEntry_of_forall_lt (h : ∀ e ∈ entries, e.1 < key) :
    insertEntry key value entries = entries ++ [(key, value)] := by
  induction entries with
  | nil => rfl
  | cons head rest ih =>
    obtain ⟨hhead, hrest⟩ := List.forall_mem_cons.mp h
    rw [insertEntry, if_neg (String.lt_asymm hhead), if_neg (String.ne_of_lt hhead).symm, ih hrest,
      List.cons_append]

theorem entries_ofList (h : entries.Pairwise fun a b => a.1 < b.1) :
    (ofList entries).entries = entries := by
  induction entries using List.reverseRecOn with
  | nil => rfl
  | append_singleton front last ih =>
    rw [List.pairwise_append] at h
    obtain ⟨hfront, -, hlast⟩ := h
    have hbehind : ∀ e ∈ front, e.1 < last.1 := fun e he => hlast e he last List.mem_cons_self
    calc (ofList (front ++ [last])).entries
        = insertEntry last.1 last.2 (ofList front).entries := by
          simp only [ofList, List.foldl_append, List.foldl_cons, List.foldl_nil, insert]
      _ = front ++ [last] := by rw [ih hfront, insertEntry_of_forall_lt hbehind]

theorem ofList_entries (d : Dictionary) : ofList d.entries = d := by
  have hentries := entries_ofList d.ascending
  generalize ofList d.entries = d' at hentries
  cases d'
  cases d
  simpa using hentries

end Dictionary
end SyntaxPaint
