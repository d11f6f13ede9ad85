import Jayvee.Verification.Feeds.Entities

/-! # Texts of alerts

Each informed entity takes the next translations of the alert away. -/

namespace Jayvee

open Foundation

namespace GtfsRTInterpreterExecutor

variable {N : Type} {header : FeedHeader} {entity : FeedEntity N} {text : Option TranslatedString}

/-! ## Translations -/

/-- A translation, or the empty text if there is none. -/
def translationText (text : Option TranslatedString) (index : Nat) : String :=
  (((text.bind TranslatedString.translation).getD [])[index]?.map Translation.text).getD ""

theorem shiftTranslation_fst : (shiftTranslation text).1 = translationText text 0 := by
  rw [shiftTranslation, translationText]
  cases htranslation : text.bind TranslatedString.translation with
  | none => rfl
  | some translations => cases translations <;> rfl

theorem translationText_shift (index : Nat) :
    translationText (shiftTranslation text).2 index = translationText text (index + 1) := by
  rw [shiftTranslation]
  cases htranslation : text.bind TranslatedString.translation with
  | none => simp [translationText, htranslation]
  | some translations => cases translations <;> simp [translationText, htranslation]

/-! ## Rows of one alert -/

theorem alertRow_inj {informedEntity : EntitySelector} {first second first' second' : String} :
    alertRow header entity informedEntity first second =
        alertRow header entity informedEntity first' second' ↔
      first = first' ∧ second = second' := by
  simp [alertRow]

theorem length_informedEntityRows (informedEntities : List EntitySelector)
    (headerText descriptionText : Option TranslatedString) :
    (informedEntityRows header entity informedEntities headerText descriptionText).length =
      informedEntities.length := by
  induction informedEntities generalizing headerText descriptionText with
  | nil => rfl
  | cons informedEntity informedEntities ih =>
      rw [informedEntityRows, List.length_cons, ih, List.length_cons]

/-- The rows have the same texts exactly if the translations that are taken do. -/
theorem informedEntityRows_eq_iff (informedEntities : List EntitySelector)
    (headerText descriptionText : Option TranslatedString) (first second : String) :
    informedEntityRows header entity informedEntities headerText descriptionText =
        informedEntities.map (fun informedEntity =>
          alertRow header entity informedEntity first second) ↔
      ∀ index < informedEntities.length, translationText headerText index = first ∧
        translationText descriptionText index = second := by
  induction informedEntities generalizing headerText descriptionText with
  | nil => simp [informedEntityRows]
  | cons informedEntity informedEntities ih =>
      rw [informedEntityRows, List.map_cons, List.cons.injEq, alertRow_inj, ih,
        shiftTranslation_fst, shiftTranslation_fst, List.length_cons]
      simp only [translationText_shift]
      constructor
      · intro h index hindex
        cases index with
        | zero => exact h.1
        | succ index => exact h.2 index (by omega)
      · intro h
        exact ⟨h 0 (by omega), fun index hindex => h (index + 1) (by omega)⟩

/-! ## Feeds of alerts -/

def informedEntities (entity : FeedEntity N) : List EntitySelector :=
  (entity.alert.bind Alert.informedEntity).getD []

def headerText (entity : FeedEntity N) : Option TranslatedString :=
  entity.alert.bind Alert.headerText

def descriptionText (entity : FeedEntity N) : Option TranslatedString :=
  entity.alert.bind Alert.descriptionText

/-- The rows that an alert should have: each one with the first texts of the alert. -/
def expectedRows (header : FeedHeader) (entity : FeedEntity N) : List (List String) :=
  (informedEntities entity).map fun informedEntity =>
    alertRow header entity informedEntity (translationText (headerText entity) 0)
      (translationText (descriptionText entity) 0)

/-- Each of the informed entities has the first texts as the translations at its index. -/
def RepeatsFirstTexts (entity : FeedEntity N) : Prop :=
  ∀ index < (informedEntities entity).length,
    translationText (headerText entity) index = translationText (headerText entity) 0 ∧
      translationText (descriptionText entity) index = translationText (descriptionText entity) 0

theorem alertRows_eq (hcarries : entity.alert.isSome = true) :
    alertRows header entity = some (informedEntityRows header entity (informedEntities entity)
      (headerText entity) (descriptionText entity)) := by
  obtain ⟨alert, halert⟩ := Option.isSome_iff_exists.mp hcarries
  rw [alertRows, informedEntities, headerText, descriptionText, halert]
  cases hinformed : alert.informedEntity with
  | none => simp [hinformed, informedEntityRows]
  | some informedEntities => simp [hinformed]

/-- Lists in equal parts are equal exactly if the parts are. -/
theorem flatMap_eq_flatMap_iff {α β : Type} {first second : α → List β} {xs : List α}
    (hlength : ∀ x ∈ xs, (first x).length = (second x).length) :
    xs.flatMap first = xs.flatMap second ↔ ∀ x ∈ xs, first x = second x := by
  induction xs with
  | nil => simp
  | cons x xs ih =>
      rw [List.forall_mem_cons] at hlength
      rw [List.flatMap_cons, List.flatMap_cons, List.forall_mem_cons, ← ih hlength.2]
      constructor
      · intro h
        exact List.append_inj h hlength.1
      · intro h
        rw [h.1, h.2]

/-- All rows have the first texts of their alert exactly if no alert has other ones at the indexes
of its informed entities. -/
theorem parseAlerts_firstTexts_iff (feedMessage : FeedMessage N)
    (halerts : ∀ entity ∈ feedMessage.entity, entity.alert.isSome = true) :
    parseAlerts feedMessage = Sheet.ofTexts (alertHeader ::
        feedMessage.entity.flatMap (expectedRows feedMessage.header)) ↔
      ∀ entity ∈ feedMessage.entity, RepeatsFirstTexts entity := by
  have hnothing : NothingAfterNone (alertRows feedMessage.header) feedMessage.entity := by
    intro before other after hsplit hnone
    have hother := halerts other (by simp [hsplit])
    rw [alertRows_eq hother] at hnone
    cases hnone
  have hrow : ∀ entity ∈ feedMessage.entity,
      ((alertRows feedMessage.header entity).getD []).length =
        (expectedRows feedMessage.header entity).length := by
    intro entity hentity
    rw [alertRows_eq (halerts entity hentity), Option.getD_some, length_informedEntityRows,
      expectedRows, List.length_map]
  have hall : collectUntilNone (alertRows feedMessage.header) feedMessage.entity =
      feedMessage.entity.flatMap fun entity => (alertRows feedMessage.header entity).getD [] :=
    collectUntilNone_eq_iff.mpr hnothing
  have hrows : parseAlerts feedMessage = Sheet.ofTexts (alertHeader ::
      feedMessage.entity.flatMap (expectedRows feedMessage.header)) ↔
        ∀ entity ∈ feedMessage.entity, (alertRows feedMessage.header entity).getD [] =
          expectedRows feedMessage.header entity := by
    rw [← flatMap_eq_flatMap_iff hrow, ← hall, parseAlerts]
    constructor
    · intro h
      exact (List.cons.inj (EntityKind.ofTexts_injective h)).2
    · intro h
      rw [h]
  rw [hrows]
  refine forall₂_congr fun entity hentity => ?_
  rw [alertRows_eq (halerts entity hentity), Option.getD_some, expectedRows,
    informedEntityRows_eq_iff]
  rfl

def alertEntity (informedEntities : List EntitySelector) (headers : List Translation) :
    FeedEntity Nat where
  id := "alert"
  tripUpdate := none
  vehicle := none
  alert := some ⟨some informedEntities, some ⟨some headers⟩, none⟩

/-- An alert of two routes with the same header in two languages. -/
def repeatedTexts : FeedMessage Nat :=
  ⟨⟨"2.0", none, none⟩, [alertEntity [⟨some "1"⟩, ⟨some "2"⟩] [⟨"Detour"⟩, ⟨"Detour"⟩]]⟩

theorem parseAlerts_firstTexts_repeatedTexts :
    parseAlerts repeatedTexts = Sheet.ofTexts (alertHeader ::
      repeatedTexts.entity.flatMap (expectedRows repeatedTexts.header)) := by
  apply (parseAlerts_firstTexts_iff repeatedTexts (by decide)).mpr
  intro entity hentity
  cases List.mem_singleton.mp hentity
  have hindexes : ∀ index < 2, translationText (some ⟨some [⟨"Detour"⟩, ⟨"Detour"⟩]⟩) index =
      translationText (some ⟨some [⟨"Detour"⟩, ⟨"Detour"⟩]⟩) 0 := by decide
  exact fun index hindex => ⟨hindexes index hindex, rfl⟩

/-- The second of two informed entities loses the only text. -/
theorem not_parseAlerts_firstTexts :
    ¬ ∀ feedMessage : FeedMessage Nat,
      (∀ entity ∈ feedMessage.entity, entity.alert.isSome = true) →
      parseAlerts feedMessage = Sheet.ofTexts (alertHeader ::
        feedMessage.entity.flatMap (expectedRows feedMessage.header)) := by
  intro h
  have htwo := h ⟨⟨"2.0", none, none⟩, [alertEntity [⟨some "1"⟩, ⟨some "2"⟩] [⟨"Detour"⟩]]⟩ (by decide)
  exact absurd htwo (by decide)

end GtfsRTInterpreterExecutor

end Jayvee
