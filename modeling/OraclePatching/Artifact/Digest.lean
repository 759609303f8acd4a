import OraclePatching.Lib.Listing

/-!
# `Artifact.Digest` — the digest of a patch tree

`opu-artifact-inspect` seals the digest of the tree it inspects, and the executors compute it again before they patch.
All three go through the regular files in the order of their paths, write the path below the root, a NUL and the hash
`sha256sum` prints, and hash what they have written. `sha256sum` marks the line of a file whose name it has to escape
with a backslash in front of the hash, and `awk` hands the mark on.

The scripts run in the C locale; names and contents are bytes. `sha256` is the hash as hexadecimal digits. Without the
program `sha256sum` none of the three prints a digest. A file that cannot be read has no line: `sha256sum` complains,
and the loop goes on to the next file. The functions below give what is printed; when the last file cannot be read, the
pipeline fails as well (`pipefail`), and the script ends without using its digest (`set -e`).
-/

namespace OraclePatching

open Listing (Bytes sortBy)

/-! ## Trees -/

inductive MediaKind where
  | regular
  | directory
  | link
  | special
  deriving DecidableEq, Repr

/-- What stands under a name: `content` is what the process reads in a regular file. -/
structure MediaEntry where
  path : List Bytes
  kind : MediaKind
  device : Nat
  links : Nat
  content : Option Bytes

/-- What stands under a directory, in the order in which the file system enumerates it. -/
structure MediaTree where
  device : Nat
  entries : List MediaEntry
  distinct : (entries.map MediaEntry.path).Nodup
  /-- Names are not empty and have no NUL and no slash. -/
  named : ∀ e ∈ entries, e.path ≠ [] ∧ ∀ name ∈ e.path, name ≠ [] ∧ 0 ∉ name ∧ 47 ∉ name
  /-- An entry stands in the root or in a directory. -/
  closed : ∀ e ∈ entries, ∀ above leaf, e.path = above ++ [leaf] → above ≠ [] → ∃ d ∈ entries, d.path = above

/-- `pwd -P` or `readlink -f`: an absolute path without a slash at its end. -/
structure MediaRoot where
  path : Bytes
  absolute : path.head? = some 47
  noSlash : path.getLast? ≠ some 47

/-! ## Validation -/

/-- `ord(c) < 32 or ord(c) == 127`; a byte from 128 on is a part of a character beyond 127. -/
def controlByte (b : UInt8) : Bool := decide (b.toNat < 32) || b == 127

/-- What `validate_tree` makes sure of for one entry. -/
def validEntry (device : Nat) (e : MediaEntry) : Bool :=
  e.device == device && (e.kind == .regular || e.kind == .directory) && (e.kind != .regular || e.links == 1) &&
    !((e.path.getLast?.getD []).any controlByte)

def validateTree (t : MediaTree) : Bool := t.entries.all (validEntry t.device)

/-! ## Pipelines -/

/-- The path below the root. -/
def MediaEntry.name (e : MediaEntry) : Bytes := [47].intercalate e.path

/-- The path as `find` prints it. -/
def MediaEntry.fullPath (root : MediaRoot) (e : MediaEntry) : Bytes := root.path ++ 47 :: e.name

/-- `find ROOT -xdev -type f -print0`: it does not descend to another device. -/
def findFiles (t : MediaTree) : List MediaEntry := t.entries.filter fun e => e.kind == .regular && e.device == t.device

/-- `${text#"$pre"}`. -/
def removePrefix (pre text : Bytes) : Bytes := if pre.isPrefixOf text then text.drop pre.length else text

/-- The bytes `sha256sum` escapes in a name: backslash, line feed and carriage return. -/
def escapedByte (b : UInt8) : Bool := b == 92 || b == 10 || b == 13

def escapeByte (b : UInt8) : Bytes :=
  if b = 92 then [92, 92] else if b = 10 then [92, 110] else if b = 13 then [92, 114] else [b]

/-- The first field of a line. -/
def awkFirst (line : Bytes) : Bytes :=
  (line.dropWhile fun b => b == 32 || b == 9).takeWhile fun b => !(b == 32 || b == 9 || b == 10)

section
variable (sha256 : Bytes → Bytes)

/-- The line `sha256sum FILE` prints. -/
def sha256sumLine (path data : Bytes) : Bytes :=
  (if path.any escapedByte then [92] else []) ++ sha256 data ++ [32, 32] ++ path.flatMap escapeByte ++ [10]

/-- `sha256sum FILE | awk '{print $1}'`. -/
def sha256sumAwk (path : Bytes) (content : Option Bytes) : Bytes :=
  match content with
  | none => []
  | some data => awkFirst (sha256sumLine sha256 path data) ++ [10]

/-- `opu_hash_file`, where there is a `sha256sum`. -/
def opuHashFile (path : Bytes) (content : Option Bytes) : Bytes := sha256sumAwk sha256 path content

/-- The loop over the sorted files. -/
def digestLoop (hashFile : Bytes → Option Bytes → Bytes) (root : MediaRoot) : List MediaEntry → Bytes
  | [] => []
  | e :: es =>
      removePrefix (root.path ++ [47]) (e.fullPath root) ++ [0] ++ hashFile (e.fullPath root) e.content ++
        digestLoop hashFile root es

/-- `find … | sort -z | while …; done`. -/
def digestListing (hashFile : Bytes → Option Bytes → Bytes) (root : MediaRoot) (t : MediaTree) : Bytes :=
  digestLoop hashFile root (sortBy (MediaEntry.fullPath root) (findFiles t))

/-- `artifact_digest` of `opu-artifact-inspect`; it validates the tree itself. -/
def inspectDigest (root : MediaRoot) (t : MediaTree) : Option Bytes :=
  if validateTree t then some (sha256 (digestListing (sha256sumAwk sha256) root t)) else none

/-- `artifact_digest` of `opu-database-single-instance-patch`. -/
def singleInstanceDigest (root : MediaRoot) (t : MediaTree) : Bytes :=
  sha256 (digestListing (sha256sumAwk sha256) root t)

/-- `artifact_digest` of `opu-database-rac-node-patch`. -/
def racDigest (root : MediaRoot) (t : MediaTree) : Bytes := sha256 (digestListing (opuHashFile sha256) root t)

end

end OraclePatching
