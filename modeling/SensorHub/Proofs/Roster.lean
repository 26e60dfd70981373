import SensorHub.Proofs.Registry

namespace SensorHub

variable {σ : Type}

/-- Where keys are distinct, removing the entry at a place is removing the entry with its key. -/
theorem filter_key_eq_eraseIdx {α β : Type} [BEq β] [LawfulBEq β] {key : α → β} {l : List α}
    (distinct : (l.map key).Nodup) {index : Nat} {a : α} (ha : l[index]? = some a) :
    l.filter (fun b => key b != key a) = l.eraseIdx index := by
  induction l generalizing index with
  | nil => simp at ha
  | cons b l ih =>
    obtain ⟨hb, hl⟩ := List.nodup_cons.mp distinct
    cases index with
    | zero =>
      obtain rfl : b = a := by simpa using ha
      have hothers : ∀ c ∈ l, (key c != key b) = true := by
        intro c hc
        rw [bne_iff_ne]
        intro he
        exact hb (he ▸ List.mem_map_of_mem hc)
      rw [List.filter_cons_of_neg (by simp), List.filter_eq_self.mpr hothers]
      rfl
    | succ index =>
      have ha' : l[index]? = some a := by simpa using ha
      have hne : (key b != key a) = true := by
        rw [bne_iff_ne]
        intro he
        exact hb (he ▸ List.mem_map_of_mem (List.mem_of_getElem? ha'))
      rw [List.filter_cons_of_pos (p := fun b => key b != key a) hne, ih hl ha']
      rfl

namespace Records

/-- The loaded apps keep apart, and the directory repeats them. -/
structure Enrolled (r : Records σ) : Prop where
  directory : r.directory = r.infos
  numbers : (r.roster.map Prod.fst).Nodup
  numbered : ∀ entry ∈ r.roster, entry.1 ≤ r.loads
  instances : (r.infos.map Info.instanceId).Nodup
  named : ∀ info ∈ r.infos, info.instanceId ≠ systemId ∧ info.instanceId ≠ broadcastId
  apps : (r.infos.map Info.appId).Nodup
  supported : ∀ info ∈ r.infos, r.config.firstSupportedApi ≤ info.targetApi

namespace Enrolled

variable {r : Records σ}

theorem note (h : r.Enrolled) (deed : Incident) : (r.note deed).Enrolled :=
  ⟨h.directory, h.numbers, h.numbered, h.instances, h.named, h.apps, h.supported⟩

theorem join (h : r.Enrolled) {info : Info}
    (supported : r.config.firstSupportedApi ≤ info.targetApi)
    (named : info.instanceId ≠ systemId ∧ info.instanceId ≠ broadcastId)
    (fresh : info.instanceId ∉ r.infos.map Info.instanceId)
    (unknown : info.appId ∉ r.infos.map Info.appId) : (r.join info).Enrolled := by
  have hinfos : (r.join info).infos = r.infos ++ [info] := List.map_append
  have hnumber : r.loads + 1 ∉ r.roster.map Prod.fst := by
    intro hm
    obtain ⟨entry, he, hload⟩ := List.mem_map.mp hm
    have hle := h.numbered entry he
    omega
  have old : ∀ {other}, other ∈ (r.join info).infos → other ∈ r.infos ∨ other = info := by
    intro other ho
    rw [hinfos] at ho
    rcases List.mem_append.mp ho with ho | ho
    · exact .inl ho
    · exact .inr (List.mem_singleton.mp ho)
  refine ⟨?_, ?_, ?_, ?_, ?_, ?_, ?_⟩
  · rw [hinfos, ← h.directory]
    rfl
  · show (List.map Prod.fst (r.roster ++ [_])).Nodup
    rw [List.map_append]
    exact nodup_concat h.numbers hnumber
  · intro entry he
    show entry.1 ≤ r.loads + 1
    rcases List.mem_append.mp he with he | he
    · exact Nat.le_succ_of_le (h.numbered entry he)
    · rw [List.mem_singleton.mp he]
  · rw [hinfos, List.map_append]
    exact nodup_concat h.instances fresh
  · intro other ho
    rcases old ho with ho | rfl
    · exact h.named other ho
    · exact named
  · rw [hinfos, List.map_append]
    exact nodup_concat h.apps unknown
  · intro other ho
    rcases old ho with ho | rfl
    · exact h.supported other ho
    · exact supported

theorem erase (h : r.Enrolled) {index load : Nat} {info : Info}
    (placed : r.roster[index]? = some (load, info)) :
    (r.erase index load info.instanceId).Enrolled := by
  have hinfos : (r.erase index load info.instanceId).infos = r.infos.eraseIdx index := by
    show List.map Prod.snd (r.roster.eraseIdx index) = _
    rw [← List.eraseIdx_map]
    rfl
  have hplaced : r.infos[index]? = some info := by
    rw [infos, List.getElem?_map, placed]
    rfl
  have hsub : (r.roster.eraseIdx index).Sublist r.roster := List.eraseIdx_sublist ..
  have hsubInfos : (r.infos.eraseIdx index).Sublist r.infos := List.eraseIdx_sublist ..
  refine ⟨?_, ?_, ?_, ?_, ?_, ?_, ?_⟩
  · rw [hinfos, ← filter_key_eq_eraseIdx h.instances hplaced, ← h.directory]
    rfl
  · exact (hsub.map Prod.fst).nodup h.numbers
  · intro entry he
    exact h.numbered entry (hsub.subset he)
  · rw [hinfos]
    exact (hsubInfos.map _).nodup h.instances
  · intro other ho
    rw [hinfos] at ho
    exact h.named other (hsubInfos.subset ho)
  · rw [hinfos]
    exact (hsubInfos.map _).nodup h.apps
  · intro other ho
    rw [hinfos] at ho
    exact h.supported other (hsubInfos.subset ho)

/-- Places are told apart by the instance ids of their apps. -/
theorem index_unique (h : r.Enrolled) {index index' load load' : Nat} {info info' : Info}
    (placed : r.roster[index]? = some (load, info))
    (placed' : r.roster[index']? = some (load', info'))
    (same : info'.instanceId = info.instanceId) : index' = index := by
  have instance_at : ∀ {i load : Nat} {info : Info}, r.roster[i]? = some (load, info) →
      (r.infos.map Info.instanceId)[i]? = some info.instanceId := by
    intro i load info hi
    rw [infos, List.map_map, List.getElem?_map, hi]
    rfl
  have hlt : index' < (r.infos.map Info.instanceId).length :=
    (List.getElem?_eq_some_iff.mp (instance_at placed')).1
  refine (List.getElem?_inj hlt h.instances).mp ?_
  rw [instance_at placed, instance_at placed', same]

theorem not_mem_eraseIdx (h : r.Enrolled) {index load : Nat} {info : Info}
    (placed : r.roster[index]? = some (load, info)) (other : Info) :
    (load, other) ∉ r.roster.eraseIdx index := by
  intro hm
  obtain ⟨i, hne, hi⟩ := List.mem_eraseIdx_iff_getElem?.mp hm
  have number_at : ∀ {i : Nat} {info : Info}, r.roster[i]? = some (load, info) →
      (r.roster.map Prod.fst)[i]? = some load := by
    intro i info hi
    rw [List.getElem?_map, hi]
    rfl
  have hlt : i < (r.roster.map Prod.fst).length :=
    (List.getElem?_eq_some_iff.mp (number_at hi)).1
  refine hne ((List.getElem?_inj hlt h.numbers).mp ?_)
  rw [number_at hi, number_at placed]

theorem info_unique (h : r.Enrolled) {info info' : Info} (mem : info ∈ r.infos)
    (mem' : info' ∈ r.infos) (same : info'.instanceId = info.instanceId) : info' = info :=
  List.inj_on_of_nodup_map h.instances mem' mem same

theorem load_unique (h : r.Enrolled) {load : Nat} {info info' : Info}
    (mem : (load, info) ∈ r.roster) (mem' : (load, info') ∈ r.roster) : info' = info :=
  congrArg Prod.snd (List.inj_on_of_nodup_map h.numbers mem' mem rfl)

end Enrolled

end Records

end SensorHub
