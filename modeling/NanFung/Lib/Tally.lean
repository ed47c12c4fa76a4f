import NanFung.Lib.Dict
import Mathlib.Data.List.Perm.Basic

/-!
# Counting in a dictionary

A loop that counts keys in a dictionary has one entry for each key that occurs, with the number of its
occurrences. The counts add up to the number of keys, and the order of the keys only moves the entries.
-/

namespace NanFung

namespace Dict

variable {κ : Type} [DecidableEq κ] {d : Dict κ Nat} {ks ks' : List κ} {k l : κ} {n : Nat}

/-- `counts[key] += 1` of a `defaultdict(int)`. -/
def increment (k : κ) (d : Dict κ Nat) : Dict κ Nat := d.set k ((d.get? k).getD 0 + 1)

/-- The keys counted one after the other. -/
def tally (ks : List κ) : Dict κ Nat := ks.foldl (fun d k => d.increment k) []

theorem tally_concat (ks : List κ) (k : κ) : tally (ks ++ [k]) = (tally ks).increment k := by
  rw [tally, List.foldl_append, List.foldl_cons, List.foldl_nil, tally]

theorem keys_tally_nodup (ks : List κ) : (tally ks).keys.Nodup := by
  induction ks using List.reverseRecOn with
  | nil => exact List.nodup_nil
  | append_singleton ks k ih =>
    rw [tally_concat]
    exact keys_set_nodup ih

theorem get?_tally [BEq κ] [LawfulBEq κ] (ks : List κ) (k : κ) :
    (tally ks).get? k = if k ∈ ks then some (ks.count k) else none := by
  induction ks using List.reverseRecOn with
  | nil => rfl
  | append_singleton ks l ih =>
    rw [tally_concat, increment, get?_set]
    split
    · next heq =>
      rw [heq, ih, if_pos (List.mem_append_right _ List.mem_cons_self), List.count_append,
        List.count_singleton_self]
      split
      · rfl
      · next hnew => rw [List.count_eq_zero_of_not_mem hnew, Option.getD_none]
    · next hne =>
      have hcount : (ks ++ [l]).count k = ks.count k := by
        rw [List.count_append, List.count_eq_zero_of_not_mem (a := k) (l := [l]), Nat.add_zero]
        exact fun h => hne (List.mem_singleton.mp h).symm
      have hmem : k ∈ ks ++ [l] ↔ k ∈ ks := by
        rw [List.mem_append, List.mem_singleton]
        exact ⟨fun h => h.resolve_right (Ne.symm hne), Or.inl⟩
      rw [ih, hcount]
      simp only [hmem]

theorem mem_tally [BEq κ] [LawfulBEq κ] : (k, n) ∈ tally ks ↔ k ∈ ks ∧ n = ks.count k := by
  have hget : (k, n) ∈ tally ks ↔ (tally ks).get? k = some n :=
    ⟨get?_of_mem (keys_tally_nodup ks), mem_of_get?⟩
  rw [hget, get?_tally]
  split
  · next hk => simp only [Option.some.injEq, hk, true_and, eq_comm]
  · next hk => simp only [reduceCtorEq, hk, false_and]

theorem sum_set (hd : d.keys.Nodup) :
    ((d.set k n).map Prod.snd).sum + (d.get? k).getD 0 = (d.map Prod.snd).sum + n := by
  induction d with
  | nil => simp only [set, get?, List.map_cons, List.map_nil, List.sum_cons, List.sum_nil,
      Option.getD_none, Nat.add_zero, Nat.zero_add]
  | cons e d ih =>
    obtain ⟨-, hd⟩ := List.nodup_cons.mp hd
    rw [set, get?_cons]
    split
    · simp only [List.map_cons, List.sum_cons, Option.getD_some]
      omega
    · have hsum := ih hd
      simp only [List.map_cons, List.sum_cons]
      omega

/-- The counts add up to the number of keys. -/
theorem sum_tally (ks : List κ) : ((tally ks).map Prod.snd).sum = ks.length := by
  induction ks using List.reverseRecOn with
  | nil => rfl
  | append_singleton ks k ih =>
    have hset := sum_set (k := k) (n := ((tally ks).get? k).getD 0 + 1) (keys_tally_nodup ks)
    rw [tally_concat, increment, List.length_append, List.length_singleton]
    omega

theorem tally_perm (h : ks.Perm ks') : (tally ks).Perm (tally ks') := by
  have hnodup : ∀ ks : List κ, (tally ks).Nodup := fun ks => (keys_tally_nodup ks).of_map _
  refine (List.perm_ext_iff_of_nodup (hnodup ks) (hnodup ks')).mpr fun e => ?_
  obtain ⟨k, n⟩ := e
  rw [mem_tally, mem_tally, h.mem_iff, h.count_eq]

theorem tally_eq_nil : tally ks = [] ↔ ks = [] := by
  constructor
  · intro h
    have hsum := sum_tally ks
    rw [h] at hsum
    exact List.length_eq_zero_iff.mp hsum.symm
  · rintro rfl
    rfl

end Dict

end NanFung
