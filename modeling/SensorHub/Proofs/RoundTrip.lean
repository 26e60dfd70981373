import Mathlib.Algebra.Ring.Nat
import SensorHub.Proofs.Lines

namespace SensorHub.Config

open Toml (BareKey Entries Writable entryOf integerBound)

def textLines (text : String) : List String :=
  (text.toList.splitOn '\n').dropLast.map fun line => String.ofList (line ++ ['\n'])

def words (c : Config) : List UInt64 :=
  [c.eventBlocks, c.eventsPerBlock, c.evictTarget, c.throttleMillis, c.wakeupBucketSeconds,
    c.wakeupBuckets]

/-- The configuration with the default for each setting whose line is missing from `lines`. -/
def withOnly (c : Config) (lines : List String) : Config where
  eventBlocks :=
    if settingLine ("event_blocks", c.eventBlocks.toNat) ∈ lines then c.eventBlocks
    else default.eventBlocks
  eventsPerBlock :=
    if settingLine ("events_per_block", c.eventsPerBlock.toNat) ∈ lines then c.eventsPerBlock
    else default.eventsPerBlock
  evictTarget :=
    if settingLine ("low_priority_evict_target", c.evictTarget.toNat) ∈ lines then c.evictTarget
    else default.evictTarget
  latencyWarnMillis :=
    if settingLine ("latency_warn_threshold_ms", c.latencyWarnMillis.toNat) ∈ lines then
      c.latencyWarnMillis
    else default.latencyWarnMillis
  throttleMillis :=
    if settingLine ("throttle_interval_ms", c.throttleMillis.toNat) ∈ lines then c.throttleMillis
    else default.throttleMillis
  throttleCount :=
    if settingLine ("throttle_count", c.throttleCount.toNat) ∈ lines then c.throttleCount
    else default.throttleCount
  wakeupBucketSeconds :=
    if settingLine ("wakeup_bucket_interval_secs", c.wakeupBucketSeconds.toNat) ∈ lines then
      c.wakeupBucketSeconds
    else default.wakeupBucketSeconds
  wakeupBuckets :=
    if settingLine ("wakeup_bucket_count", c.wakeupBuckets.toNat) ∈ lines then c.wakeupBuckets
    else default.wakeupBuckets
  firstSupportedApi :=
    if settingLine ("first_supported_api_version", c.firstSupportedApi.toNat) ∈ lines then
      c.firstSupportedApi
    else default.firstSupportedApi

variable {c : Config} {text key : String} {kept : List (String × Nat)}

/-- Every setting within range is written as a number that is read back. -/
theorem writable_settings (small : ∀ s ∈ c.settings, s.2 < integerBound) : Writable c.settings where
  distinct := by
    change ["event_blocks", "events_per_block", "low_priority_evict_target",
      "latency_warn_threshold_ms", "throttle_interval_ms", "throttle_count",
      "wakeup_bucket_interval_secs", "wakeup_bucket_count", "first_supported_api_version"].Nodup
    decide +kernel
  bare := by
    simp only [settings, List.forall_mem_cons, List.not_mem_nil, false_implies, implies_true,
      and_true]
    refine ⟨?_, ?_, ?_, ?_, ?_, ?_, ?_, ?_, ?_⟩ <;>
      exact Toml.BareKey.ofList (List.cons_ne_nil _ _) rfl
  small := small

theorem toToml_eq_ok :
    c.toToml = .ok text ↔
      (∀ s ∈ c.settings, s.2 < integerBound) ∧ text = String.join (c.settings.map settingLine) := by
  have hany : (c.settings.any fun s => integerBound ≤ s.2) = true ↔
      ¬ ∀ s ∈ c.settings, s.2 < integerBound := by
    simp
  unfold toToml
  split
  next h =>
    refine ⟨fun heq => ?_, fun ⟨small, _⟩ => absurd small (hany.mp h)⟩
    cases heq
  next h =>
    have small := Decidable.not_not.mp (mt hany.mpr h)
    refine ⟨fun heq => ?_, fun ⟨_, heq⟩ => congrArg _ heq.symm⟩
    cases heq
    exact ⟨small, rfl⟩

theorem small_settings_iff :
    (∀ s ∈ c.settings, s.2 < integerBound) ↔ ∀ word ∈ c.words, word.toNat ≤ 2 ^ 63 - 1 := by
  have hlatency := c.latencyWarnMillis.toNat_lt
  have hthrottle := c.throttleCount.toNat_lt
  have hapi := c.firstSupportedApi.toNat_lt
  simp only [settings, words, List.forall_mem_cons, List.not_mem_nil, false_implies, implies_true,
    and_true, integerBound]
  omega

/-- The characters of a line without the one that ends it. -/
def lineBody (s : String × Nat) : List Char :=
  s.1.toList ++ ' ' :: '=' :: ' ' :: Nat.toDigits 10 s.2

theorem lineBefore_eq (s : String × Nat) (rest : List Char) :
    Toml.lineBefore s rest = lineBody s ++ '\n' :: rest := by
  simp [Toml.lineBefore, lineBody]

theorem not_mem_lineBody {s : String × Nat} (bare : BareKey s.1) : '\n' ∉ lineBody s := by
  intro hmem
  simp only [lineBody, List.mem_append, List.mem_cons] at hmem
  rcases hmem with hkey | heq | heq | heq | hfigure
  · exact absurd (bare.2 _ hkey) (by decide)
  · cases heq
  · cases heq
  · cases heq
  · exact absurd (Decimal.isDigit_of_mem_figures hfigure) (by decide)

theorem splitOn_lines {settings : List (String × Nat)} (bare : ∀ s ∈ settings, BareKey s.1) :
    (settings.foldr Toml.lineBefore []).splitOn '\n' = settings.map lineBody ++ [[]] := by
  induction settings with
  | nil => rfl
  | cons s settings ih =>
    rw [List.forall_mem_cons] at bare
    rw [List.foldr_cons, lineBefore_eq,
      List.splitOn_append_cons_self_of_not_mem (not_mem_lineBody bare.1), ih bare.2]
    rfl

theorem textLines_join (h : Writable kept) :
    textLines (String.join (kept.map settingLine)) = kept.map settingLine := by
  rw [textLines, Writable.toList_join, splitOn_lines h.bare, List.dropLast_concat, List.map_map]
  apply List.map_congr_left
  intro s _
  rw [Function.comp_apply, ← lineBefore_eq, ← Toml.toList_settingLine, String.ofList_toList]

theorem setting_kept {n bound fallback : Nat} (h : Writable kept) (fits : n < bound)
    (only : ∀ m, (key, m) ∈ kept → m = n) :
    setting (kept.map entryOf) key bound fallback =
      some (if (key, n) ∈ kept then n else fallback) := by
  unfold setting
  by_cases hmem : (key, n) ∈ kept
  · have hget : Entries.get? key (kept.map entryOf) = some (.integer n) := h.get?_of_mem hmem
    simp [hget, hmem, fits]
  · have hnone : key ∉ kept.map Prod.fst := by
      intro hkey
      obtain ⟨⟨_, m⟩, hm, rfl⟩ := List.mem_map.mp hkey
      exact hmem (only m hm ▸ hm)
    simp [Toml.get?_of_not_mem hnone, hmem]

theorem setting64_kept {value fallback : UInt64} (h : Writable kept)
    (only : ∀ m, (key, m) ∈ kept → m = value.toNat) :
    setting64 (kept.map entryOf) key fallback =
      some (if (key, value.toNat) ∈ kept then value else fallback) := by
  rw [setting64, setting_kept h value.toNat_lt only]
  split <;> simp

theorem setting32_kept {value fallback : UInt32} (h : Writable kept)
    (only : ∀ m, (key, m) ∈ kept → m = value.toNat) :
    setting32 (kept.map entryOf) key fallback =
      some (if (key, value.toNat) ∈ kept then value else fallback) := by
  rw [setting32, setting_kept h value.toNat_lt only]
  split <;> simp

theorem settingLine_mem_iff {s : String × Nat} (h : Writable c.settings) (hs : s ∈ c.settings)
    (hkept : kept ⊆ c.settings) : settingLine s ∈ kept.map settingLine ↔ s ∈ kept := by
  constructor
  · intro hmem
    obtain ⟨other, hother, heq⟩ := List.mem_map.mp hmem
    exact h.settingLine_inj (hkept hother) hs heq ▸ hother
  · exact List.mem_map_of_mem

/-- Settings kept from a configuration are read as the configuration with defaults for the others. -/
theorem ofEntries?_kept (h : Writable c.settings) (nodup : kept.Nodup) (hkept : kept ⊆ c.settings) :
    ofEntries? (kept.map entryOf) = some (c.withOnly (kept.map settingLine)) := by
  have hw := h.of_subset nodup hkept
  have only : ∀ {key n}, (key, n) ∈ c.settings → ∀ m, (key, m) ∈ kept → m = n := by
    intro key n hn m hm
    have hget := h.get?_of_mem hn
    rw [h.get?_of_mem (hkept hm)] at hget
    exact Int.ofNat.inj (Toml.Node.integer.inj (Option.some.inj hget))
  have line := fun {s : String × Nat} (hs : s ∈ c.settings) => settingLine_mem_iff h hs hkept
  have word : ∀ {key} {value fallback : UInt64}, (key, value.toNat) ∈ c.settings →
      setting64 (kept.map entryOf) key fallback = some
        (if settingLine (key, value.toNat) ∈ kept.map settingLine then value else fallback) := by
    intro key value fallback hin
    rw [setting64_kept hw (only hin)]
    simp only [line hin]
  have half : ∀ {key} {value fallback : UInt32}, (key, value.toNat) ∈ c.settings →
      setting32 (kept.map entryOf) key fallback = some
        (if settingLine (key, value.toNat) ∈ kept.map settingLine then value else fallback) := by
    intro key value fallback hin
    rw [setting32_kept hw (only hin)]
    simp only [line hin]
  unfold ofEntries?
  rw [@word _ c.eventBlocks _ (by simp [settings]), @word _ c.eventsPerBlock _ (by simp [settings]),
    @word _ c.evictTarget _ (by simp [settings]),
    @half _ c.latencyWarnMillis _ (by simp [settings]),
    @word _ c.throttleMillis _ (by simp [settings]), @half _ c.throttleCount _ (by simp [settings]),
    @word _ c.wakeupBucketSeconds _ (by simp [settings]),
    @word _ c.wakeupBuckets _ (by simp [settings]),
    @half _ c.firstSupportedApi _ (by simp [settings])]
  rfl

/-- With all its lines a configuration stays as it is. -/
theorem withOnly_all (c : Config) : c.withOnly (c.settings.map settingLine) = c := by
  have hmem : ∀ s ∈ c.settings, settingLine s ∈ c.settings.map settingLine :=
    fun s hs => List.mem_map_of_mem hs
  generalize c.settings.map settingLine = lines at hmem
  simp only [settings, List.forall_mem_cons] at hmem
  simp [withOnly, hmem]

/-- Lines of settings are the lines of some of the settings. -/
theorem exists_kept {settings : List (String × Nat)} {lines : List String}
    (h : lines ⊆ settings.map settingLine) :
    ∃ kept, kept ⊆ settings ∧ kept.map settingLine = lines := by
  induction lines with
  | nil => exact ⟨[], by simp, rfl⟩
  | cons line lines ih =>
    rw [List.cons_subset] at h
    obtain ⟨s, hs, rfl⟩ := List.mem_map.mp h.1
    obtain ⟨kept, hkept, rfl⟩ := ih h.2
    exact ⟨s :: kept, List.cons_subset.mpr ⟨hs, hkept⟩, rfl⟩

/-- Some lines of a written configuration, in any order, are read as the configuration with the
defaults for the lines that are missing. -/
theorem ofToml_lines {lines : List String} (h : Writable c.settings) (nodup : lines.Nodup)
    (hlines : lines ⊆ c.settings.map settingLine) :
    ofToml (String.join lines) = (c.withOnly lines).validate := by
  obtain ⟨kept, hkept, rfl⟩ := exists_kept hlines
  have hnodup : kept.Nodup := nodup.of_map settingLine
  rw [ofToml, (h.of_subset hnodup hkept).parse?, Option.bind_some, ofEntries?_kept h hnodup hkept]

/-- A configuration is written unless a setting of 64 bits has its highest bit set. What is written
is read back, whole or in part. -/
theorem survives_toml (c : Config) :
    ((∃ error, c.toToml = .error error) ↔ ∃ word ∈ c.words, 2 ^ 63 - 1 < word.toNat) ∧
    ∀ text, c.toToml = .ok text →
      ofToml text = c.validate ∧
      ∀ lines : List String, lines.Nodup → lines ⊆ textLines text →
        ofToml (String.join lines) = (c.withOnly lines).validate := by
  constructor
  · have hok : (∃ text, c.toToml = .ok text) ↔ ∀ word ∈ c.words, word.toNat ≤ 2 ^ 63 - 1 := by
      rw [← small_settings_iff]
      exact ⟨fun ⟨_, h⟩ => (toToml_eq_ok.mp h).1, fun small => ⟨_, toToml_eq_ok.mpr ⟨small, rfl⟩⟩⟩
    have herror : (∃ error, c.toToml = .error error) ↔ ¬ ∃ text, c.toToml = .ok text := by
      cases c.toToml <;> simp
    rw [herror, hok]
    simp
  · intro text htext
    obtain ⟨small, rfl⟩ := toToml_eq_ok.mp htext
    have h := writable_settings small
    constructor
    · rw [ofToml_lines h h.nodup_lines (List.Subset.refl _), withOnly_all]
    · intro lines nodup hlines
      rw [textLines_join h] at hlines
      exact ofToml_lines h nodup hlines

/-- Two lines of a configuration without event slots, the later one first. -/
theorem survives_toml_two_lines :
    let c := { default with eventBlocks := 0, throttleCount := 3, firstSupportedApi := 7 }
    let lines := ["throttle_count = 3\n", "event_blocks = 0\n"]
    ∃ text, c.toToml = .ok text ∧ lines.Nodup ∧ lines ⊆ textLines text ∧
      ofToml text = .error (.invalid .emptyPool) ∧
      ofToml (String.join lines) = ({ c with firstSupportedApi := apiVersion11 }).validate := by
  intro c lines
  have small : ∀ s ∈ c.settings, s.2 < integerBound := by decide +kernel
  have htext : c.toToml = .ok (String.join (c.settings.map settingLine)) :=
    toToml_eq_ok.mpr ⟨small, rfl⟩
  obtain ⟨hwhole, hpart⟩ := (survives_toml c).2 _ htext
  have hlines : lines ⊆ textLines (String.join (c.settings.map settingLine)) := by
    rw [textLines_join (writable_settings small)]
    decide +kernel
  refine ⟨_, htext, by decide, hlines, hwhole.trans rfl, (hpart lines (by decide) hlines).trans ?_⟩
  decide +kernel

end SensorHub.Config
