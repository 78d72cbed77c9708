import Mathlib.Tactic.SplitIfs
import UnifiedSearch.Core.JValue

/-!
# `SettingService`

The client of the settings service: the locale of the user interface and its
language, as the notifications of `getSystemSettings` change them.
`onLocaleChanged_run` is what any sequence of notifications leaves.
-/

namespace UnifiedSearch

structure SettingService where
  localeInfo : String := ""
  language : String := ""

namespace SettingService

/-- The part of a locale before its first `-`. -/
def languageOf (localeInfo : String) : String :=
  String.ofList (localeInfo.toList.takeWhile (· ≠ '-'))

/-- `SettingService::updateLocaleInfo`, and whether the apps are to be listed again. -/
def updateLocaleInfo (s : SettingService) (settings : JValue) : Bool × SettingService :=
  if settings.isNull || !settings.isObject then (false, s) else
  match JValueUtil.getStringIn settings ["localeInfo", "locales"] "UI" "" with
  | (false, _) => (false, s)
  | (true, localeInfo) =>
    if localeInfo = "" ∨ localeInfo = s.localeInfo then (false, s) else
    -- ignore when first response
    (s.localeInfo ≠ "", { localeInfo, language := languageOf localeInfo })

/-- `SettingService::onLocaleChanged` -/
def onLocaleChanged (s : SettingService) (subscriptionPayload : JValue) : Bool × SettingService :=
  if subscriptionPayload.isNull then (false, s) else
  match JValueUtil.getBool subscriptionPayload "returnValue" true with
  | (true, true) =>
    if !(subscriptionPayload.index "settings").isObject then (false, s)
    else s.updateLocaleInfo (subscriptionPayload.index "settings")
  | _ => (false, s)

/-! ## Runs of notifications -/

/-- The locale a notification sets, if it is accepted. -/
def localeOf (payload : JValue) : Option String :=
  match JValueUtil.getBool payload "returnValue" true,
    JValueUtil.getStringIn (payload.index "settings") ["localeInfo", "locales"] "UI" "" with
  | (true, true), (true, localeInfo) => if localeInfo = "" then none else some localeInfo
  | _, _ => none

/-- The locale set last. -/
def lastLocale (payloads : List JValue) : Option String := (payloads.filterMap localeOf).getLast?

/-- The message that sets a locale. -/
def localePayload (localeInfo : String) : JValue :=
  .obj [("returnValue", .bool true), ("settings", .obj [("localeInfo",
    .obj [("locales", .obj [("UI", .str localeInfo)])])])]

/-- The service after `payloads`. -/
def notified (payloads : List JValue) : SettingService :=
  payloads.foldl (fun s payload => (s.onLocaleChanged payload).2) {}

/-- The service once `localeInfo` has been set. -/
def localized (localeInfo : Option String) : SettingService where
  localeInfo := localeInfo.getD ""
  language := languageOf (localeInfo.getD "")

/-- The locale that is set already is ignored, and nothing is lost by that. -/
theorem updateLocaleInfo_localized (localeInfo : Option String) {settings : JValue}
    (h : settings.isObject = true) : ((localized localeInfo).updateLocaleInfo settings).2 =
      match JValueUtil.getStringIn settings ["localeInfo", "locales"] "UI" "" with
      | (true, l) => if l = "" then localized localeInfo else localized (some l)
      | (false, _) => localized localeInfo := by
  have hnull : settings.isNull = false := by
    cases settings with
    | obj _ => rfl
    | _ => cases h
  unfold updateLocaleInfo
  simp only [hnull, h, Bool.not_true, Bool.or_self, Bool.false_eq_true, if_false]
  generalize JValueUtil.getStringIn settings _ "UI" "" = r
  obtain ⟨_ | _, l⟩ := r
  · rfl
  · dsimp only
    by_cases hl : l = ""
    · rw [if_pos (.inl hl), if_pos hl]
    · rw [if_neg hl]
      split_ifs with hsame
      · rw [hsame.resolve_left hl]
        rfl
      · rfl

theorem onLocaleChanged_localized (localeInfo : Option String) (payload : JValue) :
    ((localized localeInfo).onLocaleChanged payload).2 =
      localized ((localeOf payload).or localeInfo) := by
  unfold onLocaleChanged localeOf
  by_cases hnull : payload.isNull = true
  · rw [if_pos hnull]
    cases payload with
    | null => rfl
    | _ => cases hnull
  rw [if_neg hnull]
  generalize JValueUtil.getBool payload "returnValue" true = r
  obtain ⟨_ | _, _ | _⟩ := r
  · rfl
  · rfl
  · rfl
  dsimp only
  by_cases h : (payload.index "settings").isObject = true
  · rw [h, Bool.not_true, if_neg Bool.false_ne_true, updateLocaleInfo_localized _ h]
    generalize JValueUtil.getStringIn _ _ "UI" "" = r
    obtain ⟨_ | _, l⟩ := r
    · rfl
    · dsimp only
      split_ifs <;> rfl
  · have hnone : JValueUtil.getStringIn (payload.index "settings") ["localeInfo", "locales"] "UI" ""
        = (false, "") := by
      cases hs : payload.index "settings" with
      | obj _ => rw [hs] at h; exact absurd rfl h
      | _ => rfl
    rw [Bool.not_eq_true] at h
    rw [h, hnone]
    rfl

theorem reload_localized (localeInfo : Option String) (payload : JValue) :
    ((localized localeInfo).onLocaleChanged payload).1 = true ↔
      localeInfo.getD "" ≠ "" ∧ ∃ l, localeOf payload = some l ∧ l ≠ localeInfo.getD "" := by
  unfold onLocaleChanged localeOf
  by_cases hnull : payload.isNull = true
  · rw [if_pos hnull]
    cases payload with
    | null => exact iff_of_false Bool.false_ne_true fun ⟨_, _, h, _⟩ => by cases h
    | _ => cases hnull
  rw [if_neg hnull]
  generalize JValueUtil.getBool payload "returnValue" true = r
  obtain ⟨_ | _, _ | _⟩ := r
  · exact iff_of_false Bool.false_ne_true fun ⟨_, _, h, _⟩ => by cases h
  · exact iff_of_false Bool.false_ne_true fun ⟨_, _, h, _⟩ => by cases h
  · exact iff_of_false Bool.false_ne_true fun ⟨_, _, h, _⟩ => by cases h
  dsimp only
  unfold updateLocaleInfo
  cases hs : payload.index "settings" with
  | obj fields =>
    simp only [JValue.isNull, JValue.isObject, Bool.not_true, Bool.or_self, Bool.false_eq_true,
      if_false]
    generalize JValueUtil.getStringIn (.obj fields) _ "UI" "" = r
    obtain ⟨_ | _, l⟩ := r
    · exact iff_of_false Bool.false_ne_true fun ⟨_, _, h, _⟩ => by cases h
    · dsimp only [localized]
      by_cases hl : l = ""
      · simp [hl]
      · simp only [hl, false_or, if_false, Option.some.injEq, exists_eq_left']
        by_cases hsame : l = localeInfo.getD ""
        · simp [hsame]
        · rw [if_neg hsame]
          exact decide_eq_true_iff.trans (and_iff_left hsame).symm
  | _ => exact iff_of_false Bool.false_ne_true fun ⟨_, _, h, _⟩ => by cases h

/-- **The settings service has the locale that was accepted last, and its language.** -/
theorem onLocaleChanged_run (payloads : List JValue) :
    notified payloads = localized (lastLocale payloads) := by
  suffices ∀ localeInfo, payloads.foldl (fun s payload => (s.onLocaleChanged payload).2)
      (localized localeInfo) = localized ((lastLocale payloads).or localeInfo) from
    (this none).trans (by rw [Option.or_none])
  induction payloads with
  | nil => exact fun _ => rfl
  | cons payload payloads ih =>
    intro localeInfo
    rw [List.foldl_cons, onLocaleChanged_localized, ih]
    unfold lastLocale
    rw [List.filterMap_cons]
    cases localeOf payload with
    | none => rfl
    | some l => simp only [List.getLast?_cons, Option.some_or, Option.or_some]

end SettingService

end UnifiedSearch
