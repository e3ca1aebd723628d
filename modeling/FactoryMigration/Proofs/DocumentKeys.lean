import FactoryMigration.Proofs.KeyIndependence

set_option autoImplicit false

/-! # Keys in documents

The key of a storage account is read into its service, and reaches nothing else as long as an address
is found in the connection string. If a part of the address is missing, the reason quotes the whole
connection string, with the key in it (`Pipeline.ofDocument_withoutKeys`). -/

namespace FactoryMigration

/-! ## Documents without keys -/

/-- The connection string without its keys. -/
def ConnectionString.keyless (connection : String) : String :=
  String.ofList (withoutKeys connection.toList)

/-- The connection string without its keys if an address is found in it. -/
def ConnectionString.keylessIfReadable (connection : String) : String :=
  if isReadable connection then keyless connection else connection

/-- The document without the keys in its connection strings. -/
def Json.withoutKeys (document : Json) : Json :=
  document.mapConnections ConnectionString.keyless

/-- The document without the keys in its connection strings, except for those in which no address is
found. -/
def Json.withoutReadableKeys (document : Json) : Json :=
  document.mapConnections ConnectionString.keylessIfReadable

namespace LinkedService

/-- How the reason begins that a part of a connection string cannot be found: up to the connection
string. -/
def unreadableOpening (part : String) : List Char :=
  ("Invalid property 'url' in ABFS linked service definition" ++ "; "
    ++ ("Could not parse " ++ part ++ " from connection string '")).toList

/-- The reason with the keys left out of the connection string that it quotes, if it quotes one. -/
def withoutQuotedKeys (message : String) : String :=
  let quoting := connectionParts.findSome? fun part =>
    (Text.afterStart (unreadableOpening part) message.toList).map fun quoted =>
      unreadableOpening part ++ ConnectionString.withoutKeys quoted.dropLast ++ "'".toList
  (quoting.map String.ofList).getD message

theorem toList_missingPart (definition : Json) (connection part : String) :
    (missingPart definition connection part).message.toList
      = unreadableOpening part ++ (connection.toList ++ "'".toList) := by
  have happend (opening text close : String) :
      (opening ++ text ++ close).toList = opening.toList ++ (text.toList ++ close.toList) := by
    simp
  have hmessage : (missingPart definition connection part).message
      = "Invalid property 'url' in ABFS linked service definition" ++ "; "
        ++ ("Could not parse " ++ part ++ " from connection string '") ++ connection ++ "'" := by
    simp only [missingPart, Obstacle.context, String.append_assoc]
  exact (congrArg String.toList hmessage).trans (happend _ connection "'")

/-- No part begins like another one, so the reasons begin differently. -/
theorem afterStart_unreadableOpening {part other : String} (hpart : part ∈ connectionParts)
    (hother : other ∈ connectionParts) (hne : other ≠ part) :
    Text.afterStart (unreadableOpening other) (unreadableOpening part) = none := by
  have hopening (part : String) : unreadableOpening part
      = ("Invalid property 'url' in ABFS linked service definition" ++ "; "
          ++ "Could not parse ").toList
        ++ (part.toList ++ " from connection string '".toList) := by
    simp only [unreadableOpening, String.toList_append, List.append_assoc]
  have hparts : ∀ part ∈ connectionParts, ∀ other ∈ connectionParts, other ≠ part →
      Text.afterStart (other.toList ++ " from connection string '".toList)
        (part.toList ++ " from connection string '".toList) = none := by
    decide
  rw [hopening, hopening, Text.afterStart_append_append]
  exact hparts part hpart other hother hne

theorem withoutQuotedKeys_missingPart (definition : Json) (connection : String) {part : String}
    (hpart : part ∈ connectionParts) :
    withoutQuotedKeys (missingPart definition connection part).message
      = String.ofList (unreadableOpening part ++ ConnectionString.withoutKeys connection.toList
        ++ "'".toList) := by
  have hhere : Text.afterStart (unreadableOpening part)
      (missingPart definition connection part).message.toList
        = some (connection.toList ++ "'".toList) :=
    Text.afterStart_eq_some_iff.mpr (toList_missingPart definition connection part)
  have hother : ∀ other ∈ connectionParts, other ≠ part →
      Text.afterStart (unreadableOpening other)
        (missingPart definition connection part).message.toList = none := by
    intro other hmem hne
    rw [toList_missingPart]
    exact Text.afterStart_append_eq_none (afterStart_unreadableOpening hpart hmem hne)
      (afterStart_unreadableOpening hmem hpart hne.symm)
  have hdrop : (connection.toList ++ "'".toList).dropLast = connection.toList := by
    rw [List.dropLast_append_of_ne_nil (by decide), show "'".toList.dropLast = [] by decide,
      List.append_nil]
  have hfound : (connectionParts.findSome? fun other =>
      (Text.afterStart (unreadableOpening other)
        (missingPart definition connection part).message.toList).map fun quoted =>
          unreadableOpening other ++ ConnectionString.withoutKeys quoted.dropLast ++ "'".toList)
      = some (unreadableOpening part ++ ConnectionString.withoutKeys connection.toList
        ++ "'".toList) := by
    refine findSome?_eq_of_unique hpart ?_ fun other hmem hne => ?_
    · rw [hhere, Option.map_some, hdrop]
    · rw [hother other hmem hne, Option.map_none]
  rw [withoutQuotedKeys, hfound]
  rfl

end LinkedService

theorem hides_keyless : Hides ConnectionString.keyless LinkedService.withoutQuotedKeys where
  address connection := by
    simp only [ConnectionString.address, ConnectionString.keyless, String.toList_ofList,
      ConnectionString.accountName?_withoutKeys, ConnectionString.protocol?_withoutKeys,
      ConnectionString.endpointSuffix?_withoutKeys]
  message definition definition' connection _ part hpart := by
    rw [LinkedService.withoutQuotedKeys_missingPart _ _ hpart,
      LinkedService.withoutQuotedKeys_missingPart _ _ hpart, ConnectionString.keyless,
      String.toList_ofList, ConnectionString.withoutKeys_idem]

/-- Where an address is found no reason quotes the connection string. -/
theorem hides_keylessIfReadable : Hides ConnectionString.keylessIfReadable id where
  address connection := by
    unfold ConnectionString.keylessIfReadable
    split
    · exact hides_keyless.address connection
    · rfl
  message definition definition' connection hreadable part _ := by
    simp [ConnectionString.keylessIfReadable, hreadable, LinkedService.missingPart, Obstacle.context]

namespace Pipeline

/-- With all messages shown, only the keys are left out. -/
theorem shownResult_id (result : Except Failure Pipeline) :
    shownResult id result = result.map withoutKeys := by
  have hwork : Work.shown id = Work.withoutKeys := by
    funext work
    cases work <;> rfl
  have hdiagnostic : Diagnostic.shown id = id := rfl
  cases result with
  | error failure => cases failure <;> rfl
  | ok pipeline =>
    simp only [shownResult, Except.map, Except.mapError, shown, hwork, hdiagnostic, List.map_id]
    rfl

/-- **Keys in documents.** Documents that differ in no more than keys are converted to the same
pipeline up to the keys of its storage accounts, or to the same failure, if an address is found in
each connection string with a key. If none is found, the reason quotes the connection string, and the
results differ in the keys that are quoted there as well. -/
theorem ofDocument_withoutKeys (strict : Bool) (trigger : Option Json) (document document' : Json) :
    (document.withoutReadableKeys = document'.withoutReadableKeys →
      (ofDocument strict document trigger).map withoutKeys
        = (ofDocument strict document' trigger).map withoutKeys) ∧
    (document.withoutKeys = document'.withoutKeys →
      shownResult LinkedService.withoutQuotedKeys (ofDocument strict document trigger)
        = shownResult LinkedService.withoutQuotedKeys (ofDocument strict document' trigger)) := by
  constructor
  · intro h
    rw [← shownResult_id, ← shownResult_id,
      ← ofDocument_mapConnections hides_keylessIfReadable strict document trigger,
      ← ofDocument_mapConnections hides_keylessIfReadable strict document' trigger]
    exact congrArg (fun keyless => shownResult id (ofDocument strict keyless trigger)) h
  · intro h
    rw [← ofDocument_mapConnections hides_keyless strict document trigger,
      ← ofDocument_mapConnections hides_keyless strict document' trigger]
    exact congrArg (fun keyless => shownResult LinkedService.withoutQuotedKeys
      (ofDocument strict keyless trigger)) h

end Pipeline

/-! ## A connection string without a protocol -/

/-- A connection string with the given key in which the protocol is missing. -/
def withoutProtocol (key : String) : String :=
  "AccountName=lake01;EndpointSuffix=core.windows.net;AccountKey=" ++ key

theorem mapConnections_lakeDocument (f : String → String) (source sink : String) :
    (lakeDocument source sink).mapConnections f = lakeDocument (f source) (f sink) :=
  rfl

theorem lakeDocument_withoutProtocol :
    (lakeDocument (withoutProtocol "bGFrZQ==") keyless).withoutKeys
      = (lakeDocument (withoutProtocol "c2Vh") keyless).withoutKeys := by
  have hsource : ConnectionString.keyless (withoutProtocol "bGFrZQ==")
      = ConnectionString.keyless (withoutProtocol "c2Vh") :=
    congrArg String.ofList (by decide)
  rw [Json.withoutKeys, Json.withoutKeys, mapConnections_lakeDocument, mapConnections_lakeDocument,
    hsource]

/-- Two keys make no difference in a connection string with an address, and in one without they are
only seen where it is quoted. -/
theorem lakeDocument_keys_left_out :
    (Pipeline.ofDocument false (lakeDocument keyed keyless) none).map Pipeline.withoutKeys
        = (Pipeline.ofDocument false (lakeDocument (keyless ++ ";AccountKey=c2Vh") keyless)
            none).map Pipeline.withoutKeys ∧
      Pipeline.shownResult LinkedService.withoutQuotedKeys
          (Pipeline.ofDocument false (lakeDocument (withoutProtocol "bGFrZQ==") keyless) none)
        = Pipeline.shownResult LinkedService.withoutQuotedKeys
          (Pipeline.ofDocument false (lakeDocument (withoutProtocol "c2Vh") keyless) none) := by
  have hreadable : (lakeDocument keyed keyless).withoutReadableKeys
      = (lakeDocument (keyless ++ ";AccountKey=c2Vh") keyless).withoutReadableKeys := by
    have hsource : ConnectionString.keylessIfReadable keyed
        = ConnectionString.keylessIfReadable (keyless ++ ";AccountKey=c2Vh") := by
      have hkeys : ConnectionString.isReadable keyed = true ∧
          ConnectionString.isReadable (keyless ++ ";AccountKey=c2Vh") = true := by
        decide
      rw [ConnectionString.keylessIfReadable, ConnectionString.keylessIfReadable, if_pos hkeys.1,
        if_pos hkeys.2]
      exact congrArg String.ofList (by decide)
    rw [Json.withoutReadableKeys, Json.withoutReadableKeys, mapConnections_lakeDocument,
      mapConnections_lakeDocument, hsource]
  exact ⟨(Pipeline.ofDocument_withoutKeys false none _ _).1 hreadable,
    (Pipeline.ofDocument_withoutKeys false none _ _).2 lakeDocument_withoutProtocol⟩

/-- The reason for the placeholder of the copy quotes the key, and so does the strict failure. -/
theorem withoutProtocol_key_quoted :
    (lakeDocument (withoutProtocol "bGFrZQ==") keyless).withoutKeys
        = (lakeDocument (withoutProtocol "c2Vh") keyless).withoutKeys ∧
      (Pipeline.ofDocument false (lakeDocument (withoutProtocol "bGFrZQ==") keyless) none).map
          Pipeline.withoutKeys
        ≠ (Pipeline.ofDocument false (lakeDocument (withoutProtocol "c2Vh") keyless) none).map
          Pipeline.withoutKeys ∧
      (Pipeline.ofDocument true (lakeDocument (withoutProtocol "bGFrZQ==") keyless) none).map
          Pipeline.withoutKeys
        ≠ (Pipeline.ofDocument true (lakeDocument (withoutProtocol "c2Vh") keyless) none).map
          Pipeline.withoutKeys := by
  refine ⟨lakeDocument_withoutProtocol, fun h => ?_, fun h => ?_⟩
  · have hmessages := congrArg (fun result : Except Failure Pipeline =>
      result.toOption.map fun pipeline => pipeline.notTranslatable.map Diagnostic.message) h
    exact absurd hmessages (by decide +kernel)
  · have hfailure := congrArg (fun result : Except Failure Pipeline => result.map fun _ => ()) h
    exact absurd hfailure (by decide +kernel)

end FactoryMigration
