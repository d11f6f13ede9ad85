import Jayvee.Foundation.Loop
import Jayvee.Model.Sheet

/-! # The executor that interprets GTFS realtime feeds

A number of the feed that is not a whole one is of the type `N` and has a text. -/

namespace Jayvee

open Foundation

/-! ## Feed messages -/

structure FeedHeader where
  gtfsRealtimeVersion : String
  timestamp : Option ℤ
  incrementality : Option ℤ
  deriving DecidableEq, Repr

structure TripDescriptor where
  tripId : Option String
  routeId : Option String
  deriving DecidableEq, Repr

structure StopTimeEvent where
  time : Option ℤ
  deriving DecidableEq, Repr

structure StopTimeUpdate where
  stopSequence : Option ℤ
  stopId : Option String
  arrival : Option StopTimeEvent
  departure : Option StopTimeEvent
  deriving DecidableEq, Repr

structure TripUpdate where
  trip : TripDescriptor
  stopTimeUpdate : Option (List StopTimeUpdate)
  deriving DecidableEq, Repr

structure VehicleDescriptor where
  id : Option String
  deriving DecidableEq, Repr

structure Position (N : Type) where
  latitude : N
  longitude : N
  deriving DecidableEq, Repr

structure VehiclePosition (N : Type) where
  vehicle : Option VehicleDescriptor
  trip : Option TripDescriptor
  position : Option (Position N)
  timestamp : Option ℤ
  deriving DecidableEq, Repr

structure EntitySelector where
  routeId : Option String
  deriving DecidableEq, Repr

structure Translation where
  text : String
  deriving DecidableEq, Repr

structure TranslatedString where
  translation : Option (List Translation)
  deriving DecidableEq, Repr

structure Alert where
  informedEntity : Option (List EntitySelector)
  headerText : Option TranslatedString
  descriptionText : Option TranslatedString
  deriving DecidableEq, Repr

structure FeedEntity (N : Type) where
  id : String
  tripUpdate : Option TripUpdate
  vehicle : Option (VehiclePosition N)
  alert : Option Alert
  deriving DecidableEq, Repr

structure FeedMessage (N : Type) where
  header : FeedHeader
  entity : List (FeedEntity N)
  deriving DecidableEq, Repr

namespace GtfsRTInterpreterExecutor

variable {N : Type} (numberToString : N → String)

/-! ## Rows -/

/-- `value?.toString() ?? ''`. -/
def integerText (value : Option ℤ) : String :=
  (value.map toString).getD ""

/-- The first four cells of each row. -/
def commonCells (header : FeedHeader) (entity : FeedEntity N) : List String :=
  [header.gtfsRealtimeVersion, integerText header.timestamp, integerText header.incrementality,
    entity.id]

def tripUpdateHeader : List String :=
  ["header.gtfs_realtime_version", "header.timestamp", "header.incrementality", "entity.id",
    "entity.trip_update.trip.trip_id", "entity.trip_update.trip.route_id",
    "entity.trip_update.stop_time_update.stop_sequence",
    "entity.trip_update.stop_time_update.stop_id",
    "entity.trip_update.stop_time_update.arrival.time",
    "entity.trip_update.stop_time_update.departure.time"]

def tripUpdateRow (header : FeedHeader) (entity : FeedEntity N) (tripUpdate : TripUpdate)
    (stopTimeUpdate : StopTimeUpdate) : List String :=
  commonCells header entity ++
    [tripUpdate.trip.tripId.getD "", tripUpdate.trip.routeId.getD "",
      integerText stopTimeUpdate.stopSequence, stopTimeUpdate.stopId.getD "",
      integerText (stopTimeUpdate.arrival.bind StopTimeEvent.time),
      integerText (stopTimeUpdate.departure.bind StopTimeEvent.time)]

/-- The body of the loop over the entities. `none` leaves the loop. -/
def tripUpdateRows (header : FeedHeader) (entity : FeedEntity N) : Option (List (List String)) :=
  match entity.tripUpdate with
  | none => none
  | some tripUpdate =>
      match tripUpdate.stopTimeUpdate with
      | none => some []
      | some stopTimeUpdates => some (stopTimeUpdates.map (tripUpdateRow header entity tripUpdate))

def vehiclePositionHeader : List String :=
  ["header.gtfs_realtime_version", "header.timestamp", "header.incrementality", "entity.id",
    "entity.vehicle_position.vehicle_descriptor.id", "entity.vehicle_position.trip.trip_id",
    "entity.vehicle_position.trip.route_id", "entity.vehicle_position.position.latitude",
    "entity.vehicle_position.position.longitude", "entity.vehicle_position.timestamp"]

def vehiclePositionRow (header : FeedHeader) (entity : FeedEntity N)
    (vehicle : VehiclePosition N) : List String :=
  commonCells header entity ++
    [(vehicle.vehicle.bind VehicleDescriptor.id).getD "",
      (vehicle.trip.bind TripDescriptor.tripId).getD "",
      (vehicle.trip.bind TripDescriptor.routeId).getD "",
      (vehicle.position.map fun position => numberToString position.latitude).getD "",
      (vehicle.position.map fun position => numberToString position.longitude).getD "",
      integerText vehicle.timestamp]

/-- The body of the loop over the entities. `none` leaves the loop. -/
def vehiclePositionRows (header : FeedHeader) (entity : FeedEntity N) :
    Option (List (List String)) :=
  match entity.vehicle with
  | none => none
  | some vehicle => some [vehiclePositionRow numberToString header entity vehicle]

def alertHeader : List String :=
  ["header.gtfs_realtime_version", "header.timestamp", "header.incrementality", "entity.id",
    "entity.alert.informed_entity.route_id", "entity.alert.header_text",
    "entity.alert.description_text"]

def alertRow (header : FeedHeader) (entity : FeedEntity N) (informedEntity : EntitySelector)
    (headerText descriptionText : String) : List String :=
  commonCells header entity ++ [informedEntity.routeId.getD "", headerText, descriptionText]

/-- `text?.translation?.shift()?.text.toString() ?? ''`, and the text that is left. -/
def shiftTranslation (text : Option TranslatedString) : String × Option TranslatedString :=
  match text.bind TranslatedString.translation with
  | some (translation :: translations) => (translation.text, some ⟨some translations⟩)
  | _ => ("", text)

/-- The loop over the informed entities, with the texts that are left of the alert. -/
def informedEntityRows (header : FeedHeader) (entity : FeedEntity N) :
    List EntitySelector → (headerText descriptionText : Option TranslatedString) →
      List (List String)
  | [], _, _ => []
  | informedEntity :: informedEntities, headerText, descriptionText =>
      let (firstHeaderText, headerText) := shiftTranslation headerText
      let (firstDescriptionText, descriptionText) := shiftTranslation descriptionText
      alertRow header entity informedEntity firstHeaderText firstDescriptionText ::
        informedEntityRows header entity informedEntities headerText descriptionText

/-- The body of the loop over the entities. `none` leaves the loop. -/
def alertRows (header : FeedHeader) (entity : FeedEntity N) : Option (List (List String)) :=
  match entity.alert with
  | none => none
  | some alert =>
      match alert.informedEntity with
      | none => some []
      | some informedEntities =>
          some (informedEntityRows header entity informedEntities alert.headerText
            alert.descriptionText)

/-! ## Sheets -/

def parseTripUpdates (feedMessage : FeedMessage N) : Sheet :=
  Sheet.ofTexts
    (tripUpdateHeader :: collectUntilNone (tripUpdateRows feedMessage.header) feedMessage.entity)

def parseVehiclePositions (feedMessage : FeedMessage N) : Sheet :=
  Sheet.ofTexts (vehiclePositionHeader ::
    collectUntilNone (vehiclePositionRows numberToString feedMessage.header) feedMessage.entity)

def parseAlerts (feedMessage : FeedMessage N) : Sheet :=
  Sheet.ofTexts (alertHeader :: collectUntilNone (alertRows feedMessage.header) feedMessage.entity)

/-- The error is the message. -/
def parseFeedMessage (entityType : String) (feedMessage : FeedMessage N) : Except String Sheet :=
  match entityType with
  | "trip_update" => .ok (parseTripUpdates feedMessage)
  | "alert" => .ok (parseAlerts feedMessage)
  | "vehicle" => .ok (parseVehiclePositions numberToString feedMessage)
  | _ => .error s!"Entity {entityType} not allowed for block GtfsRTInterpreterblock, expected \"trip_update\", \"alert\" or \"vehicle\"."

end GtfsRTInterpreterExecutor

end Jayvee
