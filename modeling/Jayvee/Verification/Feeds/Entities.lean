import Jayvee.Model.GtfsRTInterpreterExecutor

/-! # Entities of a feed and the rows of its sheets

Each loop is left at the first entity of another kind, although rows may still follow. -/

namespace Jayvee

open Foundation

namespace GtfsRTInterpreterExecutor

/-! ## Kinds of entities -/

inductive EntityKind where
  | tripUpdate
  | vehicle
  | alert
  deriving DecidableEq, Repr

namespace EntityKind

variable {N : Type} (numberToString : N → String)

def header : EntityKind → List String
  | tripUpdate => tripUpdateHeader
  | vehicle => vehiclePositionHeader
  | alert => alertHeader

/-- The rows of an entity. There are none if it does not carry the kind. -/
def rows (feedHeader : FeedHeader) : EntityKind → FeedEntity N → Option (List (List String))
  | tripUpdate => tripUpdateRows feedHeader
  | vehicle => vehiclePositionRows numberToString feedHeader
  | alert => alertRows feedHeader

def parse (feedMessage : FeedMessage N) : EntityKind → Sheet
  | tripUpdate => parseTripUpdates feedMessage
  | vehicle => parseVehiclePositions numberToString feedMessage
  | alert => parseAlerts feedMessage

def carries (entity : FeedEntity N) : EntityKind → Bool
  | tripUpdate => entity.tripUpdate.isSome
  | vehicle => entity.vehicle.isSome
  | alert => entity.alert.isSome

/-- The number of stop-time updates, vehicles or informed entities. -/
def count (entity : FeedEntity N) : EntityKind → Nat
  | tripUpdate => ((entity.tripUpdate.bind TripUpdate.stopTimeUpdate).getD []).length
  | vehicle => entity.vehicle.toList.length
  | alert => ((entity.alert.bind Alert.informedEntity).getD []).length

variable {kind : EntityKind} {feedHeader : FeedHeader} {entity : FeedEntity N}

theorem parse_eq (feedMessage : FeedMessage N) (kind : EntityKind) :
    kind.parse numberToString feedMessage = Sheet.ofTexts (kind.header ::
      collectUntilNone (kind.rows numberToString feedMessage.header) feedMessage.entity) := by
  cases kind <;> rfl

theorem isSome_rows (kind : EntityKind) (feedHeader : FeedHeader) (entity : FeedEntity N) :
    (kind.rows numberToString feedHeader entity).isSome = kind.carries entity := by
  cases kind with
  | tripUpdate =>
      rw [rows, carries, tripUpdateRows]
      cases entity.tripUpdate with
      | none => rfl
      | some tripUpdate => cases htimes : tripUpdate.stopTimeUpdate <;> simp [htimes]
  | vehicle =>
      rw [rows, carries, vehiclePositionRows]
      cases entity.vehicle <;> rfl
  | alert =>
      rw [rows, carries, alertRows]
      cases entity.alert with
      | none => rfl
      | some alert => cases hinformed : alert.informedEntity <;> simp [hinformed]

/-- The id of the entity in a row. -/
def entityId (row : List String) : Option String :=
  row[3]?

theorem informedEntityRows_ids (informedEntities : List EntitySelector)
    (headerText descriptionText : Option TranslatedString) :
    (informedEntityRows feedHeader entity informedEntities headerText descriptionText).map
      entityId = List.replicate informedEntities.length (some entity.id) := by
  induction informedEntities generalizing headerText descriptionText with
  | nil => rfl
  | cons informedEntity informedEntities ih =>
      rw [informedEntityRows, List.map_cons, ih, List.length_cons, List.replicate_succ]
      rfl

/-- There is one row for each stop-time update, vehicle or informed entity, with the id of the
entity. -/
theorem rows_ids (kind : EntityKind) (feedHeader : FeedHeader) (entity : FeedEntity N) :
    ((kind.rows numberToString feedHeader entity).getD []).map entityId =
      List.replicate (kind.count entity) (some entity.id) := by
  cases kind with
  | tripUpdate =>
      rw [rows, count, tripUpdateRows]
      cases entity.tripUpdate with
      | none => rfl
      | some tripUpdate =>
          cases htimes : tripUpdate.stopTimeUpdate with
          | none => simp [htimes]
          | some stopTimeUpdates =>
              simp only [htimes, Option.getD_some, Option.bind_some, List.map_map]
              exact List.map_eq_replicate_iff.mpr fun _ _ => rfl
  | vehicle =>
      rw [rows, count, vehiclePositionRows]
      cases entity.vehicle <;> rfl
  | alert =>
      rw [rows, count, alertRows]
      cases entity.alert with
      | none => rfl
      | some alert =>
          cases hinformed : alert.informedEntity with
          | none => simp [hinformed]
          | some informedEntities =>
              simp only [hinformed, Option.getD_some, Option.bind_some]
              exact informedEntityRows_ids informedEntities _ _

/-! ## Lost entities -/

/-- No entity with rows of the kind comes after one that does not carry the kind. -/
def NoneAfterOther (kind : EntityKind) (entities : List (FeedEntity N)) : Prop :=
  ∀ before other after, entities = before ++ other :: after → kind.carries other = false →
    ∀ entity ∈ after, kind.count entity = 0

theorem rows_eq_nil_iff (kind : EntityKind) (feedHeader : FeedHeader) (entity : FeedEntity N) :
    (kind.rows numberToString feedHeader entity).getD [] = [] ↔ kind.count entity = 0 := by
  have hids := congrArg List.length (rows_ids numberToString kind feedHeader entity)
  rw [List.length_map, List.length_replicate] at hids
  rw [← List.length_eq_zero_iff, hids]

theorem noneAfterOther_iff (feedHeader : FeedHeader) (entities : List (FeedEntity N)) :
    kind.NoneAfterOther entities ↔
      NothingAfterNone (kind.rows numberToString feedHeader) entities := by
  have hnone : ∀ entity : FeedEntity N,
      kind.rows numberToString feedHeader entity = none ↔ kind.carries entity = false := by
    intro entity
    rw [← isSome_rows numberToString kind feedHeader, Option.isSome_eq_false_iff,
      Option.isNone_iff_eq_none]
  simp only [NoneAfterOther, NothingAfterNone, hnone, rows_eq_nil_iff]

/-! ## Sheets -/

theorem ofTexts_injective {texts texts' : List (List String)}
    (h : Sheet.ofTexts texts = Sheet.ofTexts texts') : texts = texts' := by
  have hdata : texts.map (List.map some) = texts'.map (List.map some) := congrArg Sheet.data h
  exact List.map_injective_iff.mpr
    (List.map_injective_iff.mpr (Option.some_injective String)) hdata

/-- The ids of the entities in the rows of a sheet below the header. -/
def entityIds (sheet : Sheet) : List (Option String) :=
  sheet.data.tail.map fun row => row[3]?.join

theorem entityIds_ofTexts (header : List String) (rows : List (List String)) :
    entityIds (Sheet.ofTexts (header :: rows)) = rows.map entityId := by
  rw [entityIds, Sheet.ofTexts, Sheet.construct, List.map_cons, List.tail_cons, List.map_map]
  refine List.map_congr_left fun row _ => ?_
  rw [Function.comp_apply, List.getElem?_map, entityId]
  cases row[3]? <;> rfl

theorem numberOfRows_ofTexts (rows : List (List String)) :
    (Sheet.ofTexts rows).numberOfRows = rows.length := by
  rw [Sheet.ofTexts, Sheet.construct, List.length_map]

variable {feedMessage : FeedMessage N} {variants : List (FeedEntity N)}

/-- What the interpretation should do. The variant of the feed has other entities that do not
carry the kind, in any places. -/
structure LosesNoEntity (numberToString : N → String) (kind : EntityKind)
    (feedMessage : FeedMessage N) (variants : List (FeedEntity N)) : Prop where
  sheet : kind.parse numberToString feedMessage = Sheet.ofTexts (kind.header ::
    collectAll (kind.rows numberToString feedMessage.header) feedMessage.entity)
  ids : entityIds (kind.parse numberToString feedMessage) =
    feedMessage.entity.flatMap fun entity =>
      List.replicate (kind.count entity) (some entity.id)
  variantRows : (kind.parse numberToString { feedMessage with entity := variants }).numberOfRows =
    (kind.parse numberToString feedMessage).numberOfRows
  variantIds : entityIds (kind.parse numberToString { feedMessage with entity := variants }) =
    entityIds (kind.parse numberToString feedMessage)

theorem collectAll_rows_eq
    (hsame : variants.filter kind.carries = feedMessage.entity.filter kind.carries)
    (feedHeader : FeedHeader) :
    collectAll (kind.rows numberToString feedHeader) variants =
      collectAll (kind.rows numberToString feedHeader) feedMessage.entity := by
  rw [← collectAll_filter_isSome, ← collectAll_filter_isSome _ feedMessage.entity]
  simp only [isSome_rows]
  rw [hsame]

/-- Together with its variant, a feed loses no entity exactly if in both of them none comes after
an entity of another kind. -/
theorem losesNoEntity_iff (numberToString : N → String) (kind : EntityKind)
    (feedMessage : FeedMessage N) (variants : List (FeedEntity N))
    (hsame : variants.filter kind.carries = feedMessage.entity.filter kind.carries) :
    LosesNoEntity numberToString kind feedMessage variants ↔
      kind.NoneAfterOther feedMessage.entity ∧ kind.NoneAfterOther variants := by
  have hall := collectAll_rows_eq numberToString hsame feedMessage.header
  have hvariant : kind.parse numberToString { feedMessage with entity := variants } =
      Sheet.ofTexts (kind.header ::
        collectUntilNone (kind.rows numberToString feedMessage.header) variants) :=
    parse_eq numberToString { feedMessage with entity := variants } kind
  rw [noneAfterOther_iff numberToString feedMessage.header,
    noneAfterOther_iff numberToString feedMessage.header]
  constructor
  · intro h
    have hrows : collectUntilNone (kind.rows numberToString feedMessage.header) feedMessage.entity =
        collectAll (kind.rows numberToString feedMessage.header) feedMessage.entity := by
      have hsheet := h.sheet
      rw [parse_eq] at hsheet
      exact (List.cons.inj (ofTexts_injective hsheet)).2
    have hlength := h.variantRows
    rw [hvariant, h.sheet, numberOfRows_ofTexts, numberOfRows_ofTexts, List.length_cons,
      List.length_cons, ← hall] at hlength
    exact ⟨collectUntilNone_eq_iff.mp hrows, length_collectUntilNone_eq_iff.mp (by omega)⟩
  · intro h
    have hfeed := collectUntilNone_eq_iff.mpr h.1
    have hvariants := collectUntilNone_eq_iff.mpr h.2
    have hsheet : kind.parse numberToString feedMessage = Sheet.ofTexts (kind.header ::
        collectAll (kind.rows numberToString feedMessage.header) feedMessage.entity) := by
      rw [parse_eq, hfeed]
    have hsheets : kind.parse numberToString { feedMessage with entity := variants } =
        kind.parse numberToString feedMessage := by
      rw [hvariant, hsheet, hvariants, hall]
    refine ⟨hsheet, ?_, congrArg Sheet.numberOfRows hsheets, congrArg entityIds hsheets⟩
    rw [hsheet, entityIds_ofTexts, collectAll, List.map_flatMap]
    simp only [rows_ids]

/-! ## A mixed feed -/

def tripEntity : FeedEntity Nat where
  id := "trip"
  tripUpdate := some ⟨⟨some "1", none⟩, some [⟨some 1, none, none, none⟩]⟩
  vehicle := none
  alert := none

def vehicleEntity : FeedEntity Nat where
  id := "bus"
  tripUpdate := none
  vehicle := some ⟨none, none, some ⟨49, 11⟩, none⟩
  alert := none

theorem losesNoEntity_iff_tripFirst :
    LosesNoEntity toString tripUpdate ⟨⟨"2.0", none, none⟩, [tripEntity, vehicleEntity]⟩
        [tripEntity] ↔
      tripUpdate.NoneAfterOther [tripEntity, vehicleEntity] ∧
        tripUpdate.NoneAfterOther [tripEntity] :=
  losesNoEntity_iff toString tripUpdate ⟨⟨"2.0", none, none⟩, [tripEntity, vehicleEntity]⟩
    [tripEntity] (by decide)

/-- A vehicle before a trip update makes the trip update get lost. -/
theorem not_losesNoEntity_vehicleFirst :
    ¬ ∀ (kind : EntityKind) (feedMessage : FeedMessage Nat) (variants : List (FeedEntity Nat)),
      variants.filter kind.carries = feedMessage.entity.filter kind.carries →
      LosesNoEntity toString kind feedMessage variants := by
  intro h
  have hlost := (h tripUpdate ⟨⟨"2.0", none, none⟩, [vehicleEntity, tripEntity]⟩ [tripEntity]
    (by decide)).variantRows
  exact absurd hlost (by decide)

end EntityKind

end GtfsRTInterpreterExecutor

end Jayvee
