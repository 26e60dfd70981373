import SensorHub.Proofs.Lives
import SensorHub.Proofs.Stopping

namespace SensorHub

variable {σ : Type}

/-- Where keys are distinct, the first entry with a key is the only one. -/
theorem find?_key_eq_some {α β : Type} [BEq β] [LawfulBEq β] {key : α → β} {l : List α}
    (distinct : (l.map key).Nodup) {k : β} {a : α} :
    l.find? (fun b => key b == k) = some a ↔ a ∈ l ∧ key a = k := by
  constructor
  · intro h
    exact ⟨List.mem_of_find?_eq_some h, by simpa using List.find?_some h⟩
  · rintro ⟨ha, rfl⟩
    obtain ⟨b, hb⟩ : ∃ b, l.find? (fun b => key b == key a) = some b := by
      refine Option.isSome_iff_exists.mp (List.find?_isSome.mpr ⟨a, ha, by simp⟩)
    have hkey : key b = key a := by simpa using List.find?_some hb
    rw [hb, List.inj_on_of_nodup_map distinct (List.mem_of_find?_eq_some hb) ha hkey]

namespace Hub

variable {hub : Hub σ}

/-- What is looked up in the registry is looked up in what the loaded apps are. -/
theorem find?_view (hub : Hub σ) (p : Info → Bool) :
    (hub.view.apps.find? fun n => p n.info).map Nanoapp.info = hub.infos.find? p := by
  have hinfos : hub.infos = hub.view.apps.map Nanoapp.info := List.map_map.symm
  rw [hinfos, List.find?_map]
  rfl

theorem infoOfApp?_view (hub : Hub σ) (appId : UInt64) :
    hub.view.infoOfApp? appId = hub.infos.find? fun info => info.appId == appId :=
  hub.find?_view fun info => info.appId == appId

theorem infoOfInstance?_view (hub : Hub σ) (instanceId : UInt16) :
    hub.view.infoOfInstance? instanceId =
      hub.infos.find? fun info => info.instanceId == instanceId :=
  hub.find?_view fun info => info.instanceId == instanceId

theorem instanceOfApp?_view (hub : Hub σ) (appId : UInt64) :
    hub.view.instanceOfApp? appId = (hub.view.infoOfApp? appId).map Info.instanceId := by
  rw [HubView.instanceOfApp?, HubView.infoOfApp?, Option.map_map]
  rfl

end Hub

namespace Machine

variable {m : Machine σ}

/-- In every run the loaded apps keep apart, and the directory repeats them. -/
theorem Reachable.enrolled (hm : m.Reachable) : m.hub.records.Enrolled := by
  obtain ⟨start, hs, hr⟩ := hm
  exact (hr.tended hs).enrolled

/-- At every point of every run the directory lists what the loaded apps are, in the order of the
registry. Loaded apps differ in their instance ids, none of which is reserved, and in their app ids,
and each supports the interface. So every lookup has the same answer for all threads as for the
loop, and an app id leads to an instance id exactly if that leads back to an app with the app id. -/
theorem registry_agrees (hm : m.Reachable) :
    m.hub.directory = m.hub.view.apps.map Nanoapp.info ∧
      (m.hub.infos.map Info.instanceId).Nodup ∧
      (∀ info ∈ m.hub.infos, info.instanceId ≠ systemId ∧ info.instanceId ≠ broadcastId) ∧
      (m.hub.infos.map Info.appId).Nodup ∧
      (∀ info ∈ m.hub.infos, m.hub.config.firstSupportedApi ≤ info.targetApi) ∧
      (∀ appId, m.hub.snapshot.infoOfApp? appId = m.hub.view.infoOfApp? appId ∧
        m.hub.snapshot.instanceOfApp? appId = m.hub.view.instanceOfApp? appId) ∧
      (∀ instanceId,
        m.hub.snapshot.infoOfInstance? instanceId = m.hub.view.infoOfInstance? instanceId) ∧
      ∀ appId instanceId, m.hub.view.instanceOfApp? appId = some instanceId ↔
        ∃ info, m.hub.view.infoOfInstance? instanceId = some info ∧ info.appId = appId := by
  have henrolled := hm.enrolled
  have hdirectory : m.hub.directory = m.hub.infos := by
    rw [Hub.infos_eq]
    exact henrolled.directory
  have hinstances := henrolled.instances
  have hnamed := henrolled.named
  have happs := henrolled.apps
  have hsupported := henrolled.supported
  rw [← Hub.infos_eq] at hinstances hnamed happs hsupported
  have hinfo : ∀ appId, m.hub.snapshot.infoOfApp? appId = m.hub.view.infoOfApp? appId := by
    intro appId
    rw [Hub.infoOfApp?_view, ← hdirectory]
    rfl
  refine ⟨?_, hinstances, hnamed, happs, hsupported, fun appId => ⟨hinfo appId, ?_⟩, ?_, ?_⟩
  · rw [hdirectory]
    exact List.map_map.symm
  · rw [Hub.instanceOfApp?_view, ← hinfo]
    rfl
  · intro instanceId
    rw [Hub.infoOfInstance?_view, ← hdirectory]
    rfl
  · intro appId instanceId
    rw [Hub.instanceOfApp?_view, Hub.infoOfApp?_view, Hub.infoOfInstance?_view,
      Option.map_eq_some_iff]
    constructor
    · rintro ⟨info, hfind, hid⟩
      obtain ⟨hmem, happ⟩ := (find?_key_eq_some happs).mp hfind
      exact ⟨info, (find?_key_eq_some hinstances).mpr ⟨hmem, hid⟩, happ⟩
    · rintro ⟨info, hfind, happ⟩
      obtain ⟨hmem, hid⟩ := (find?_key_eq_some hinstances).mp hfind
      exact ⟨info, (find?_key_eq_some happs).mpr ⟨hmem, happ⟩, hid⟩

/-- While an unload inside another one is about to end, both apps are still found. -/
theorem registry_agrees_nestedUnload :
    ∃ info, ((plain nestedUnload).advance 47).1.hub.snapshot.infoOfInstance? 2 = some info ∧
      info.appId = 2 := by
  have hm : ((plain nestedUnload).advance 47).1.Reachable :=
    ⟨_, isStart_plain nestedUnload, reaches_unfinished (by decide +kernel)⟩
  obtain ⟨-, -, -, -, -, -, hinstance, hback⟩ := registry_agrees hm
  obtain ⟨info, hfind, happ⟩ := (hback 2 2).mp (by decide +kernel)
  exact ⟨info, (hinstance 2).trans hfind, happ⟩

end Machine

end SensorHub
