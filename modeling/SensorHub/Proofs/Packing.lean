import Mathlib.Data.List.Chain
import SensorHub.Dump
import SensorHub.Hub.Basic

namespace SensorHub.Dump

theorem join_flatten (groups : List (List String)) :
    String.join groups.flatten = String.join (groups.map String.join) := by
  induction groups with
  | nil => rfl
  | cons group groups ih =>
    rw [List.flatten_cons, String.join_append, List.map_cons, String.join_cons, ih]

theorem join_blank {records : List String} (blank : ∀ record ∈ records, record = "") :
    String.join records = "" := by
  induction records with
  | nil => rfl
  | cons record records ih =>
    obtain ⟨hrecord, hrecords⟩ := List.forall_mem_cons.mp blank
    rw [String.join_cons, hrecord, ih hrecords, String.empty_append]

@[simp] theorem join_concat (group : List String) (record : String) :
    String.join (group ++ [record]) = String.join group ++ record := by
  simp

/-- Records in groups, oldest first, each the records of one chunk. Records in front of the first
group are empty. -/
structure Packing (limit : Nat) (records skipped : List String) (groups : List (List String)) :
    Prop where
  whole : records = skipped ++ groups.flatten
  blank : ∀ record ∈ skipped, record = ""
  filled : ∀ group ∈ groups, String.join group ≠ ""
  bounded : ∀ group ∈ groups,
    (String.join group).utf8ByteSize ≤ limit ∨ String.join group ∈ group
  tight : groups.IsChain fun group next =>
    ∃ first ∈ next.head?, limit < (String.join group).utf8ByteSize + first.utf8ByteSize

namespace Packing

variable {limit : Nat} {records skipped last : List String} {groups older : List (List String)}
  {record : String}

theorem join_eq (h : Packing limit records skipped groups) :
    String.join (groups.map String.join) = text records := by
  unfold text
  rw [h.whole, String.join_append, join_blank h.blank, String.empty_append, join_flatten]

/-- Before the first chunk an empty record is skipped. -/
theorem skip (h : Packing limit records skipped []) :
    Packing limit (records ++ [""]) (skipped ++ [""]) [] where
  whole := by
    have hwhole := h.whole
    rw [List.flatten_nil, List.append_nil] at hwhole
    rw [hwhole, List.flatten_nil, List.append_nil]
  blank := by
    intro record hmem
    rcases List.mem_append.mp hmem with hmem | hmem
    · exact h.blank record hmem
    · exact List.mem_singleton.mp hmem
  filled := h.filled
  bounded := h.bounded
  tight := h.tight

/-- A record that fits, or an empty one, joins the open chunk. -/
theorem extend (h : Packing limit records skipped (older ++ [last]))
    (fits : record = "" ∨ (String.join last).utf8ByteSize + record.utf8ByteSize ≤ limit) :
    Packing limit (records ++ [record]) skipped (older ++ [last ++ [record]]) where
  whole := by
    rw [h.whole]
    simp
  blank := h.blank
  filled := by
    intro group hmem
    rcases List.mem_append.mp hmem with hmem | hmem
    · exact h.filled group (List.mem_append_left _ hmem)
    · obtain rfl := List.mem_singleton.mp hmem
      have hlast := h.filled last (by simp)
      rw [join_concat]
      intro hempty
      exact hlast (String.append_eq_empty_iff.mp hempty).1
  bounded := by
    intro group hmem
    rcases List.mem_append.mp hmem with hmem | hmem
    · exact h.bounded group (List.mem_append_left _ hmem)
    · obtain rfl := List.mem_singleton.mp hmem
      rw [join_concat]
      rcases fits with rfl | hfits
      · have hlast := h.bounded last (by simp)
        rw [String.append_empty]
        exact hlast.imp_right (List.mem_append_left _)
      · left
        rwa [String.utf8ByteSize_append]
  tight := by
    obtain ⟨holder, -, hnext⟩ := List.isChain_append.mp h.tight
    refine List.isChain_append.mpr ⟨holder, List.isChain_singleton _, ?_⟩
    intro group hgroup next hhead
    cases hhead
    obtain ⟨first, hfirst, hfull⟩ := hnext group hgroup last rfl
    exact ⟨first, by simp [Option.mem_def.mp hfirst], hfull⟩

theorem begin (h : Packing limit records skipped groups) (nonempty : record ≠ "")
    (full : ∀ last ∈ groups.getLast?,
      limit < (String.join last).utf8ByteSize + record.utf8ByteSize) :
    Packing limit (records ++ [record]) skipped (groups ++ [[record]]) where
  whole := by
    rw [h.whole]
    simp
  blank := h.blank
  filled := by
    intro group hmem
    rcases List.mem_append.mp hmem with hmem | hmem
    · exact h.filled group hmem
    · obtain rfl := List.mem_singleton.mp hmem
      simpa using nonempty
  bounded := by
    intro group hmem
    rcases List.mem_append.mp hmem with hmem | hmem
    · exact h.bounded group hmem
    · obtain rfl := List.mem_singleton.mp hmem
      right
      simp
  tight := by
    refine List.isChain_append.mpr ⟨h.tight, List.isChain_singleton _, ?_⟩
    intro group hgroup next hhead
    cases hhead
    exact ⟨record, rfl, full group hgroup⟩

end Packing

namespace Chunks

/-- The chunks are a packing of the records printed so far. -/
def Packed (c : Chunks) (records : List String) : Prop :=
  ∃ skipped groups, Packing c.limit records skipped groups ∧ c.toList = groups.map String.join

@[simp] theorem limit_print (c : Chunks) (record : String) : (c.print record).limit = c.limit := by
  unfold print
  split
  · rfl
  · split
    · rfl
    · split <;> rfl

theorem print_empty (c : Chunks) : c.print "" = c :=
  rfl

theorem print_of_ne {c : Chunks} {record : String} (h : record ≠ "") :
    (c.print record).newestFirst = match c.newestFirst with
      | [] => [record]
      | last :: older =>
        if last.utf8ByteSize + record.utf8ByteSize ≤ c.limit then (last ++ record) :: older
        else record :: last :: older := by
  have hrecord : record.isEmpty = false := String.isEmpty_eq_false_iff.mpr h
  unfold print
  rw [hrecord]
  cases c.newestFirst with
  | nil => rfl
  | cons last older =>
    simp only [Bool.false_eq_true, if_false]
    split <;> rfl

theorem Packed.print {c : Chunks} {records : List String} (h : c.Packed records)
    (record : String) : (c.print record).Packed (records ++ [record]) := by
  obtain ⟨skipped, groups, hpacking, hchunks⟩ := h
  unfold Packed
  rw [limit_print]
  have hnewest : c.newestFirst = (groups.map String.join).reverse := by
    rw [← hchunks]
    exact (List.reverse_reverse _).symm
  by_cases hempty : record = ""
  · subst hempty
    rw [print_empty, hchunks]
    rcases List.eq_nil_or_concat groups with rfl | ⟨older, last, rfl⟩
    · exact ⟨_, _, hpacking.skip, rfl⟩
    · rw [List.concat_eq_append] at hpacking ⊢
      exact ⟨_, _, hpacking.extend (.inl rfl), by simp⟩
  · -- the newest chunk stands first in the state and last in the packing
    unfold toList
    rw [print_of_ne hempty, hnewest]
    rcases List.eq_nil_or_concat groups with rfl | ⟨older, last, rfl⟩
    · exact ⟨_, _, hpacking.begin hempty (by simp), by simp⟩
    · rw [List.concat_eq_append] at hpacking ⊢
      have hopen : ((older ++ [last]).map String.join).reverse =
          String.join last :: (older.map String.join).reverse := by simp
      rw [hopen]
      dsimp only
      by_cases hfits : (String.join last).utf8ByteSize + record.utf8ByteSize ≤ c.limit
      · rw [if_pos hfits]
        exact ⟨_, _, hpacking.extend (.inr hfits), by simp⟩
      · rw [if_neg hfits]
        refine ⟨_, _, hpacking.begin hempty ?_, by simp⟩
        simpa using hfits

end Chunks

theorem limit_chunks (limit : Nat) (records : List String) :
    (chunks limit records).limit = max limit 1 := by
  induction records using List.reverseRecOn with
  | nil => rfl
  | append_singleton records record ih =>
    unfold chunks
    rw [List.foldl_append]
    exact (Chunks.limit_print _ record).trans ih

theorem packed_chunks (limit : Nat) (records : List String) :
    (chunks limit records).Packed records := by
  induction records using List.reverseRecOn with
  | nil => exact ⟨[], [], ⟨rfl, by simp, by simp, by simp, .nil⟩, rfl⟩
  | append_singleton records record ih =>
    unfold chunks
    rw [List.foldl_append]
    exact ih.print record

/-- A dump in chunks reads as the plain one. Each chunk holds whole records as they follow each
other, is not empty and keeps to the limit unless a single record is longer; the record that begins
a later chunk would not have fitted into the one before. So it is for the dump of any hub. -/
theorem chunks_pack (limit : Nat) (records : List String) :
    String.join (chunks limit records).toList = text records ∧
    (∃ (skipped : List String) (groups : List (List String)),
      records = skipped ++ groups.flatten ∧
      (∀ record ∈ skipped, record = "") ∧
      (chunks limit records).toList = groups.map String.join ∧
      (∀ group ∈ groups, String.join group ≠ "" ∧
        ((String.join group).utf8ByteSize ≤ max limit 1 ∨ String.join group ∈ group)) ∧
      groups.IsChain fun group next => ∃ first ∈ next.head?,
        max limit 1 < (String.join group).utf8ByteSize + first.utf8ByteSize) ∧
    ∀ (σ : Type) (hub : Hub σ),
      String.join (chunks limit hub.view.dump).toList = text hub.view.dump := by
  have hjoin : ∀ records, String.join (chunks limit records).toList = text records := by
    intro records
    obtain ⟨skipped, groups, hpacking, hchunks⟩ := packed_chunks limit records
    rw [hchunks]
    exact hpacking.join_eq
  refine ⟨hjoin records, ?_, fun σ hub => hjoin hub.view.dump⟩
  obtain ⟨skipped, groups, hpacking, hchunks⟩ := packed_chunks limit records
  rw [limit_chunks] at hpacking
  refine ⟨skipped, groups, hpacking.whole, hpacking.blank, hchunks, ?_, hpacking.tight⟩
  intro group hmem
  exact ⟨hpacking.filled group hmem, hpacking.bounded group hmem⟩

end SensorHub.Dump
