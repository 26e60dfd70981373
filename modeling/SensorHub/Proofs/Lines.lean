import Mathlib.Data.List.Nodup
import SensorHub.Config.File
import SensorHub.Proofs.Figures

namespace SensorHub.Toml

def BareKey (key : String) : Prop :=
  key.toList ≠ [] ∧ ∀ c ∈ key.toList, isBare c = true

def entryOf (setting : String × Nat) : String × Node :=
  (setting.1, .integer setting.2)

/-- The characters of a line, behind which `rest` stands. -/
def lineBefore (setting : String × Nat) (rest : List Char) : List Char :=
  setting.1.toList ++ ' ' :: '=' :: ' ' :: (Nat.toDigits 10 setting.2 ++ '\n' :: rest)

variable {key : String} {rest : List Char} {setting : String × Nat}

theorem toList_settingLine (setting : String × Nat) :
    (Config.settingLine setting).toList = lineBefore setting [] := by
  simp [Config.settingLine, lineBefore, Nat.toString_eq_repr, Nat.toList_repr]
  rfl

theorem BareKey.ofList {chars : List Char} (ne : chars ≠ []) (bare : chars.all isBare = true) :
    BareKey (String.ofList chars) := by
  rw [BareKey, String.toList_ofList]
  exact ⟨ne, List.all_eq_true.mp bare⟩

theorem BareKey.first (h : BareKey key) :
    ∃ c more, key.toList = c :: more ∧ isBare c = true := by
  cases hkey : key.toList with
  | nil => exact absurd hkey h.1
  | cons c more => exact ⟨c, more, rfl, h.2 c (hkey ▸ List.mem_cons_self ..)⟩

/-- A character of a bare key differs from any that is none. -/
theorem bare_ne {c d : Char} (hc : isBare c = true) (hd : isBare d = false) : c ≠ d := by
  rintro rfl
  rw [hd] at hc
  cases hc

theorem not_isBlank_of_isBare {c : Char} (h : isBare c = true) : isBlank c = false := by
  have hspace := bare_ne h (show isBare ' ' = false by decide)
  have htab := bare_ne h (show isBare '\t' = false by decide)
  simp [isBlank, hspace, htab]

theorem BareKey.skipBlanks (h : BareKey key) : skipBlanks (key.toList ++ rest) = key.toList ++ rest := by
  obtain ⟨c, more, hkey, hc⟩ := h.first
  simp [hkey, Toml.skipBlanks, not_isBlank_of_isBare hc]

theorem BareKey.keyPart? (h : BareKey key) :
    keyPart? (key.toList ++ ' ' :: rest) = some (key, ' ' :: rest) := by
  have htake : (key.toList ++ ' ' :: rest).takeWhile isBare = key.toList := by
    rw [List.takeWhile_append_of_pos h.2]
    simp [show isBare ' ' = false by decide]
  have hdrop : (key.toList ++ ' ' :: rest).dropWhile isBare = ' ' :: rest := by
    rw [List.dropWhile_append_of_pos h.2]
    simp [show isBare ' ' = false by decide]
  obtain ⟨c, more, hkey, hc⟩ := h.first
  unfold Toml.keyPart?
  split
  next heq =>
    rw [hkey] at heq
    exact absurd (List.cons.inj heq).1 (bare_ne hc (by decide))
  next heq =>
    rw [hkey] at heq
    exact absurd (List.cons.inj heq).1 (bare_ne hc (by decide))
  next =>
    simp [htake, hdrop, h.1]

/-- A bare key in front of an equals sign is read as one part. -/
theorem BareKey.key? (h : BareKey key) :
    key? (key.toList ++ ' ' :: '=' :: rest) = some (([], key), '=' :: rest) := by
  have hparts : ∀ budget, keyParts? (budget + 1) (key.toList ++ ' ' :: '=' :: rest) =
      some ([key], '=' :: rest) := by
    intro budget
    rw [keyParts?, h.skipBlanks, h.keyPart?]
    rfl
  simp [Toml.key?, depthLimit, hparts]

/-- A new key of the top table goes behind its other entries. -/
theorem set_of_get?_eq_none {entries : Entries} {node : Node} (h : entries.get? key = none) :
    entries.set key node = entries ++ [(key, node)] := by
  induction entries with
  | nil => rfl
  | cons entry entries ih =>
    unfold Entries.get? at h
    split at h
    next => cases h
    next hne => simp [Entries.set, hne, ih h]

theorem setKey_of_get?_eq_none {root : Entries} {node : Node} (h : root.get? key = none) :
    Document.setKey ⟨root, []⟩ [] key node = some ⟨root ++ [(key, node)], []⟩ := by
  simp [Document.setKey, Entries.insert, Entries.alter, h, set_of_get?_eq_none]

theorem keyLine?_setting {root : Entries} (bare : BareKey setting.1)
    (small : setting.2 < integerBound) (fresh : root.get? setting.1 = none) :
    keyLine? ⟨root, []⟩ (lineBefore setting rest) = some (⟨root ++ [entryOf setting], []⟩, rest) := by
  have hset := @setKey_of_get?_eq_none _ _ (.integer setting.2) fresh
  have hblanks : skipBlanks (' ' :: (Nat.toDigits 10 setting.2 ++ '\n' :: rest)) =
      Nat.toDigits 10 setting.2 ++ '\n' :: rest := by
    obtain ⟨c, figures, hfigures, hdigit⟩ := exists_figures setting.2
    have hspace := figure_ne hdigit (show ' '.isDigit = false by decide)
    have htab := figure_ne hdigit (show '\t'.isDigit = false by decide)
    simp [hfigures, skipBlanks, isBlank, hspace, htab]
  have hvalue := @value?_figures rest _ small (depthLimit - 1)
  have hend : lineEnd? ('\n' :: rest) = some rest := rfl
  simp [keyLine?, lineBefore, bare.key?, char?, hblanks, hvalue, hend, hset, entryOf]

/-- A text that begins with the line of a setting goes on behind it. -/
theorem lines?_setting {root : Entries} (budget : Nat) (bare : BareKey setting.1)
    (small : setting.2 < integerBound) (fresh : root.get? setting.1 = none) :
    lines? (budget + 1) ⟨root, []⟩ (lineBefore setting rest) =
      lines? budget ⟨root ++ [entryOf setting], []⟩ rest := by
  have hline := @keyLine?_setting rest _ _ bare small fresh
  obtain ⟨c, more, hkey, hc⟩ := bare.first
  have hskip : skipBlanks (lineBefore setting rest) = lineBefore setting rest := bare.skipBlanks
  have hcons : ∃ later, lineBefore setting rest = c :: later := by
    simp [lineBefore, hkey]
  obtain ⟨later, hcons⟩ := hcons
  rw [lines?, hskip]
  rw [hcons] at hline ⊢
  have hfeed : newline? (c :: later) = none := by
    unfold newline?
    split
    next heq => exact absurd (List.cons.inj heq).1 (bare_ne hc (by decide))
    next heq => exact absurd (List.cons.inj heq).1 (bare_ne hc (by decide))
    next => rfl
  split
  next heq => cases heq
  next heq => exact absurd (List.cons.inj heq).1 (bare_ne hc (by decide))
  next heq => exact absurd (List.cons.inj heq).1 (bare_ne hc (by decide))
  next =>
    rw [hfeed]
    have hhash := bare_ne hc (show isBare '#' = false by decide)
    simp [hhash, hline]

theorem get?_append_entry {root : Entries} (h : root.get? key = none) (hne : setting.1 ≠ key) :
    (root ++ [entryOf setting] : Entries).get? key = none := by
  induction root with
  | nil => simp [Entries.get?, entryOf, hne]
  | cons entry root ih =>
    unfold Entries.get? at h
    split at h
    next => cases h
    next hentry => simp [Entries.get?, hentry, ih h]

/-- The lines of settings with different keys add their entries in that order. -/
theorem lines?_settings {settings : List (String × Nat)} {root : Entries} {budget : Nat}
    (budgeted : settings.length < budget) (distinct : (settings.map Prod.fst).Nodup)
    (bare : ∀ s ∈ settings, BareKey s.1) (small : ∀ s ∈ settings, s.2 < integerBound)
    (fresh : ∀ s ∈ settings, root.get? s.1 = none) :
    lines? budget ⟨root, []⟩ (settings.foldr lineBefore []) =
      some ⟨root ++ settings.map entryOf, []⟩ := by
  induction settings generalizing root budget with
  | nil =>
    obtain ⟨n, rfl⟩ : ∃ n, budget = n + 1 := ⟨budget - 1, by simp at budgeted; omega⟩
    simp [lines?, skipBlanks]
  | cons setting settings ih =>
    obtain ⟨n, rfl⟩ : ∃ n, budget = n + 1 := ⟨budget - 1, by simp at budgeted; omega⟩
    rw [List.map_cons, List.nodup_cons] at distinct
    rw [List.forall_mem_cons] at bare small fresh
    have hnext : ∀ s ∈ settings, (root ++ [entryOf setting] : Entries).get? s.1 = none := by
      intro s hs
      apply get?_append_entry (fresh.2 s hs)
      intro heq
      exact distinct.1 (List.mem_map.mpr ⟨s, hs, heq.symm⟩)
    rw [List.foldr_cons, lines?_setting n bare.1 small.1 fresh.1,
      ih (by simpa using budgeted) distinct.2 bare.2 small.2 hnext]
    simp

/-- Settings that are read from their lines: their keys are bare and differ, and their numbers are
within range. -/
structure Writable (settings : List (String × Nat)) : Prop where
  distinct : (settings.map Prod.fst).Nodup
  bare : ∀ s ∈ settings, BareKey s.1
  small : ∀ s ∈ settings, s.2 < integerBound

namespace Writable

variable {settings kept : List (String × Nat)}

/-- Any of the settings may be left out, and their order does not matter. -/
theorem of_subset (h : Writable settings) (nodup : kept.Nodup) (hkept : kept ⊆ settings) :
    Writable kept where
  distinct := by
    apply nodup.map_on
    intro s hs other hother heq
    exact List.inj_on_of_nodup_map h.distinct (hkept hs) (hkept hother) heq
  bare s hs := h.bare s (hkept hs)
  small s hs := h.small s (hkept hs)

theorem toList_join (settings : List (String × Nat)) :
    (String.join (settings.map Config.settingLine)).toList = settings.foldr lineBefore [] := by
  induction settings with
  | nil => rfl
  | cons setting settings ih =>
    rw [String.toList_join] at ih ⊢
    rw [List.map_cons, List.flatMap_cons, ih, toList_settingLine, List.foldr_cons]
    simp [lineBefore]

theorem length_le (settings : List (String × Nat)) :
    settings.length ≤ (settings.foldr lineBefore []).length := by
  induction settings with
  | nil => simp
  | cons setting settings ih =>
    simp only [List.foldr_cons, lineBefore, List.length_append, List.length_cons]
    omega

theorem parse? (h : Writable settings) :
    parse? (String.join (settings.map Config.settingLine)) = some (settings.map entryOf) := by
  have hmark : skipMark (settings.foldr lineBefore []) = settings.foldr lineBefore [] := by
    cases settings with
    | nil => rfl
    | cons setting settings =>
      obtain ⟨c, more, hkey, hc⟩ := (h.bare setting (List.mem_cons_self ..)).first
      have hmark := bare_ne hc (show isBare '\ufeff' = false by decide)
      simp only [List.foldr_cons, lineBefore, hkey, List.cons_append]
      unfold skipMark
      split
      next heq => exact absurd (List.cons.inj heq).1 hmark
      next => rfl
  have hlines := lines?_settings (Nat.lt_succ_of_le (length_le settings)) h.distinct h.bare h.small
    (fun s _ => rfl : ∀ s ∈ settings, Entries.get? s.1 [] = none)
  rw [Toml.parse?, toList_join, hmark, Document.empty, hlines]
  rfl

/-- A key that is set has the number that it is set to. -/
theorem get?_of_mem (h : Writable settings) (hmem : setting ∈ settings) :
    Entries.get? setting.1 (settings.map entryOf) = some (.integer setting.2) := by
  have distinct := h.distinct
  clear h
  induction settings with
  | nil => cases hmem
  | cons first settings ih =>
    rw [List.map_cons, List.nodup_cons] at distinct
    rw [List.map_cons, entryOf, Entries.get?]
    cases List.mem_cons.mp hmem with
    | inl heq => simp [heq]
    | inr hlater =>
      have hne : first.1 ≠ setting.1 := by
        intro heq
        exact distinct.1 (List.mem_map.mpr ⟨setting, hlater, heq.symm⟩)
      simpa [hne] using ih hlater distinct.2

end Writable

theorem get?_of_not_mem {settings : List (String × Nat)} (h : key ∉ settings.map Prod.fst) :
    Entries.get? key (settings.map entryOf) = none := by
  induction settings with
  | nil => rfl
  | cons first settings ih =>
    rw [List.map_cons, List.mem_cons, not_or] at h
    simpa [Entries.get?, entryOf, Ne.symm h.1] using ih h.2

namespace Writable

variable {settings : List (String × Nat)} {other : String × Nat}

theorem settingLine_inj (h : Writable settings) (hs : setting ∈ settings) (hother : other ∈ settings)
    (heq : Config.settingLine setting = Config.settingLine other) : setting = other := by
  have single : ∀ {s}, s ∈ settings → Writable [s] :=
    fun {s} hs => h.of_subset (List.nodup_singleton s) (by simpa using hs)
  have hread := (single hs).parse?
  have hreadOther := (single hother).parse?
  simp only [List.map_cons, List.map_nil] at hread hreadOther
  rw [heq, hreadOther] at hread
  simp only [Option.some.injEq, List.cons.injEq, entryOf, Prod.mk.injEq, Node.integer.injEq,
    Int.natCast_inj, and_true] at hread
  exact Prod.ext hread.1.symm hread.2.symm

theorem nodup_lines (h : Writable settings) : (settings.map Config.settingLine).Nodup := by
  apply List.Nodup.map_on _ h.distinct.of_map
  intro s hs other hother heq
  exact h.settingLine_inj hs hother heq

end Writable

end SensorHub.Toml
