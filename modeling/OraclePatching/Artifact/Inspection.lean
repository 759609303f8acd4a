import OraclePatching.Records.Escape

/-!
# `Artifact.Inspection` — the manifest `opu-artifact-inspect` prints

`emit` prints one JSON document on one line. What it prints in it (the lines `grep` finds, the answers of `xmllint`,
paths, digests and counts) is the data of an `Inspection`; `Inspection.document` is the document this is meant to be.
-/

namespace OraclePatching

open JsonText (Document comma)

structure InspectedFile where
  path : String
  sha256 : String

/-- The platform of a valid `inventory.xml`. -/
structure InspectedPlatform where
  id : String
  name : String
  sha256 : String

structure Inspection where
  status : String
  reason : String
  path : String
  fileCount : Nat
  sha256 : String
  /-- The lines of `patch_ids`. -/
  ids : List String
  platform : Option InspectedPlatform
  metadataFiles : List InspectedFile
  readmeFiles : List InspectedFile
  descriptions : String

/-! ## Texts -/

/-- The loop of `json_files`. -/
def jsonFilesLoop : Bool → List InspectedFile → List Char
  | _, [] => []
  | first, file :: files =>
      comma first ++ "\x7b\"path\":".toList ++ opuJsonString file.path.toList ++ ",\"sha256\":".toList ++
        opuJsonString file.sha256.toList ++ "\x7d".toList ++ jsonFilesLoop false files

def jsonFiles (files : List InspectedFile) : List Char := "[".toList ++ jsonFilesLoop true files ++ "]".toList

/-- The loop over `patch_ids`; it passes over empty lines. -/
def patchIdsLoop : Bool → List String → List Char
  | _, [] => []
  | first, id :: ids =>
      if id = "" then patchIdsLoop first ids
      else comma first ++ opuJsonString id.toList ++ patchIdsLoop false ids

def platformsJson : Option InspectedPlatform → List Char
  | none => "[]".toList
  | some p =>
      "[\x7b\"id\":".toList ++ opuJsonString p.id.toList ++ ",\"name\":".toList ++ opuJsonString p.name.toList ++
        ",\"source\":\"etc/config/inventory.xml\",\"source_sha256\":".toList ++ opuJsonString p.sha256.toList ++
        "\x7d]".toList

def emit (i : Inspection) : List Char :=
  "\x7b\"schema_version\":\"1.0\",\"artifact\":\x7b\"status\":".toList ++ opuJsonString i.status.toList ++
    ",\"reason\":".toList ++ opuJsonNullableString i.reason ++ ",\"path\":".toList ++ opuJsonString i.path.toList ++
    ",\"file_count\":".toList ++ Nat.toDigits 10 i.fileCount ++ ",\"sha256\":".toList ++
    opuJsonString i.sha256.toList ++ ",\"patch_ids\":[".toList ++ patchIdsLoop true i.ids ++
    "],\"platforms\":".toList ++ platformsJson i.platform ++ ",\"metadata_files\":".toList ++
    jsonFiles i.metadataFiles ++ ",\"readme_files\":".toList ++ jsonFiles i.readmeFiles ++
    ",\"classification_evidence\":".toList ++ opuJsonString i.descriptions.toList ++ "\x7d\x7d\n".toList

/-! ## Documents -/

def InspectedFile.document (file : InspectedFile) : Document :=
  .record [("path", .text file.path), ("sha256", .text file.sha256)]

def InspectedPlatform.document (p : InspectedPlatform) : Document :=
  .record [("id", .text p.id), ("name", .text p.name), ("source", .text "etc/config/inventory.xml"),
    ("source_sha256", .text p.sha256)]

def nullable (value : String) : Document := if value ≠ "" then .text value else .null

def Inspection.document (i : Inspection) : Document :=
  .record [("schema_version", .text "1.0"),
    ("artifact", .record [("status", .text i.status), ("reason", nullable i.reason), ("path", .text i.path),
      ("file_count", .number i.fileCount), ("sha256", .text i.sha256),
      ("patch_ids", .list ((i.ids.filter (· ≠ "")).map .text)),
      ("platforms", .list (i.platform.toList.map InspectedPlatform.document)),
      ("metadata_files", .list (i.metadataFiles.map InspectedFile.document)),
      ("readme_files", .list (i.readmeFiles.map InspectedFile.document)),
      ("classification_evidence", .text i.descriptions)])]

/-- The texts an inspection puts into the manifest. -/
def Inspection.texts (i : Inspection) : List String :=
  [i.status, i.reason, i.path, i.sha256, i.descriptions] ++ i.ids ++
    (i.platform.toList.flatMap fun p => [p.id, p.name, p.sha256]) ++
    ((i.metadataFiles ++ i.readmeFiles).flatMap fun file => [file.path, file.sha256])

end OraclePatching
