import SampleTypes.Proofs.Json.Forms

/-!
# Sorting the members of a JSON value

Sorting moves members and changes nothing else, so a form keeps the sorted value if it keeps the
value.

## Main results

* `Json.Kept.sorted` — what a form keeps, it keeps sorted
-/

namespace SampleTypes.Json

theorem sortedItems_eq_map (items : List Json) : sortedItems items = items.map sorted := by
  induction items with
  | nil => rfl
  | cons j rest ih => rw [sortedItems, ih, List.map_cons]

theorem sortedMembers_eq_map (members : List (Text × Json)) :
    sortedMembers members = members.map fun m => (m.1, m.2.sorted) := by
  induction members with
  | nil => rfl
  | cons m rest ih => rw [sortedMembers, ih, List.map_cons]

theorem sorted_array (items : List Json) : sorted (.array items) = .array (items.map sorted) := by
  rw [sorted, sortedItems_eq_map]

theorem sorted_object (members : List (Text × Json)) :
    sorted (.object members) = .object (Entries.sort (members.map fun m => (m.1, m.2.sorted))) := by
  rw [sorted, sortedMembers_eq_map]

theorem Kept.sorted {ascii : Bool} {j : Json} (h : Kept ascii j) : Kept ascii j.sorted := by
  induction h with
  | null => exact .null
  | bool b => exact .bool b
  | int h => exact .int h
  | float h => exact .float h
  | text h => exact .text h
  | @array items _ ih =>
    rw [sorted_array]
    apply Kept.array
    intro j hj
    obtain ⟨k, hk, rfl⟩ := List.mem_map.1 hj
    exact ih k hk
  | @object members nodup names _ ih =>
    have perm := Entries.sort_perm (members.map fun m => (m.1, m.2.sorted))
    have kept : ∀ m ∈ Entries.sort (members.map fun m => (m.1, m.2.sorted)),
        Writable ascii m.1 ∧ Kept ascii m.2 := by
      intro m hm
      obtain ⟨n, hn, rfl⟩ := List.mem_map.1 (perm.mem_iff.1 hm)
      exact ⟨names n hn, ih n hn⟩
    rw [sorted_object]
    refine .object ?_ (fun m hm => (kept m hm).1) fun m hm => (kept m hm).2
    rw [← Entries.names_map Json.sorted members] at nodup
    exact (perm.map Prod.fst).nodup_iff.2 nodup

end SampleTypes.Json
