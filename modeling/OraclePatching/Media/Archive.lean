import OraclePatching.Lib.FileTree

/-!
# `Media.Archive` — the extraction of patch media

`artifact_media.py`: `member_path`, `extract` and `validate_tree`. What `tarfile` and `zipfile` list is given as the
members of an archive, each with what opening it for reading gives.
-/

namespace OraclePatching.Media

open FileTree

/-! ## Archives -/

/-- What comes out of an open member: its bytes, and what the reader raises behind them. -/
structure Stream where
  data : List UInt8
  fault : Option String

/-- `tarfile.TarInfo`, with what `extractfile` gives. -/
structure TarInfo where
  name : String
  isdir : Bool
  isreg : Bool
  mode : Nat
  size : Int
  extractfile : Except String (Option Stream)

/-- `zipfile.ZipInfo`, with what `open` gives. -/
structure ZipInfo where
  filename : String
  externalAttr : Nat
  fileSize : Int
  opened : Except String Stream

inductive Archive where
  | tar (members : List TarInfo)
  | zip (infolist : List ZipInfo)

inductive Member where
  | tar (info : TarInfo)
  | zip (info : ZipInfo)

def Archive.members : Archive → List Member
  | .tar members => members.map .tar
  | .zip infolist => infolist.map .zip

namespace Member

def name : Member → String
  | .tar info => info.name
  | .zip info => info.filename

def mode : Member → Nat
  | .tar info => info.mode
  | .zip info => info.externalAttr >>> 16

/-- `stat.S_IFMT(mode)`. -/
def format (m : Member) : Nat := m.mode &&& 0o170000

/-- `isdir` of a tar member; `is_dir` of a zip member looks at the name. -/
def directory : Member → Bool
  | .tar info => info.isdir
  | .zip info => decide (info.filename.toList.getLast? = some '/')

def regular (m : Member) : Bool :=
  match m with
  | .tar info => info.isreg
  | .zip _ => decide (m.format = 0 ∨ m.format = 0o100000)

def size : Member → Int
  | .tar info => info.size
  | .zip info => info.fileSize

/-- The name says directory, the mode says something else. -/
def unsafeDirectory (m : Member) : Bool :=
  match m with
  | .tar _ => false
  | .zip _ => m.directory && decide (m.format ≠ 0 ∧ m.format ≠ 0o040000)

def payload : Member → Except String (Option Stream)
  | .tar info => info.extractfile
  | .zip info => info.opened.map some

end Member

/-! ## `member_path` -/

/-- `ord(c) < 32 or ord(c) == 127`. -/
def isControl (c : Char) : Bool := decide (c.toNat < 32 ∨ c.toNat = 127)

/-- `PurePosixPath(name).parts` of a relative path. -/
def pathParts (name : String) : List String :=
  ((name.toList.splitOn '/').map String.ofList).filter fun part => decide (part ≠ "" ∧ part ≠ ".")

/-- The path rule of a member. -/
def SafePath (expected name : String) : Prop :=
  name ≠ "" ∧ '\\' ∉ name.toList ∧ name.toList.head? ≠ some '/' ∧ ".." ∉ pathParts name ∧
    (pathParts name).head? = some expected ∧ name.toList.any isControl = false

instance (expected name : String) : Decidable (SafePath expected name) := by
  unfold SafePath
  infer_instance

/-- What the interpreter and the kernel add: `repr` of a text, and the calls. -/
structure Host where
  repr : String → String
  kernel : Kernel

/-- `member_path`, as the parts of the path. -/
def memberPath (host : Host) (name expected : String) : Except String (List String) :=
  if SafePath expected name then .ok (pathParts name)
  else .error ("unsafe or unexpected archive path: " ++ host.repr name)

/-! ## `extract` -/

/-- `OPU_ARTIFACT_MAX_BYTES` and `OPU_ARTIFACT_MAX_ENTRIES`. -/
structure Limits where
  maxBytes : Int := 100 * 1024 * 1024 * 1024
  maxFiles : Int := 1000000

/-- A line of `entries`. -/
structure Entry where
  payload : Except String (Option Stream)
  rel : List String
  directory : Bool
  mode : Nat
  size : Int

/-- The variables of the first loop. -/
structure Scan where
  entries : List Entry
  seen : List (List String)
  total : Int

/-- One round of the first loop. -/
def scanMember (host : Host) (limits : Limits) (expected : String) (s : Scan) (m : Member) : Except String Scan :=
  match memberPath host m.name expected with
  | .error e => .error e
  | .ok rel =>
      if m.unsafeDirectory then .error ("unsafe archive directory: " ++ m.name)
      else if ¬ m.directory ∧ ¬ m.regular then .error ("archive links and special files are forbidden: " ++ m.name)
      else if rel ∈ s.seen ∨ m.size < 0 then .error ("duplicate or invalid archive entry: " ++ m.name)
      else if (s.seen.length + 1 : Int) > limits.maxFiles ∨ s.total + m.size > limits.maxBytes then
        .error "archive exceeds extraction limits"
      else .ok ⟨s.entries ++ [⟨m.payload, rel, m.directory, m.mode, m.size⟩], s.seen ++ [rel], s.total + m.size⟩

/-- The first loop, and the test behind it. -/
def preflight (host : Host) (limits : Limits) (expected : String) (archive : Archive) : Except String (List Entry) :=
  match archive.members.foldlM (scanMember host limits expected) ⟨[], [], 0⟩ with
  | .error e => .error e
  | .ok s => if s.entries = [] then .error "archive is empty" else .ok s.entries

/-- What `main` catches. -/
inductive Raised where
  | valueError (text : String)
  | osError (errno : Errno)
  | mediaError (text : String)

/-- A step of the program on the tree. -/
abbrev Io := EStateM Raised Tree

def os (call : Call Unit) : Io Unit := call.adaptExcept .osError

/-- `target.stat().st_size`. -/
def fileSize (t : Tree) (p : Location) : Nat :=
  match node? t p with
  | some ⟨.regular data _, _, _⟩ => data.length
  | _ => 0

/-- Open a member for reading. -/
def openMember (e : Entry) : Io Stream :=
  match e.payload with
  | .error text => throw (.mediaError text)
  | .ok none => throw (.valueError ("archive entry has no payload: " ++ "/".intercalate e.rel))
  | .ok (some stream) => pure stream

/-- `copyfileobj`, up to what the reader raises. -/
def copyStream (host : Host) (stream : Stream) (target : Location) : Io Unit := do
  os (write host.kernel target stream.data)
  match stream.fault with
  | some text => throw (.mediaError text)
  | none => pure ()

/-- The size test behind the copy. -/
def checkSize (e : Entry) (target : Location) : Io Unit := do
  let t ← get
  if (fileSize t target : Int) ≠ e.size then
    throw (.valueError ("archive payload size mismatch: " ++ "/".intercalate e.rel))
  else pure ()

/-- `destination.joinpath(*rel.parts)`. -/
def Entry.target (e : Entry) (destination : Location) : Location := e.rel.reverse ++ destination

/-- One round of the second loop. -/
def extractEntry (host : Host) (destination : Location) (e : Entry) : Io Unit :=
  if e.directory then os (makeDirs host.kernel 0o700 (e.target destination))
  else do
    os (makeDirs host.kernel 0o700 (e.target destination).tail)
    let stream ← openMember e
    os (FileTree.create host.kernel 0o600 (e.target destination))
    copyStream host stream (e.target destination)
    checkSize e (e.target destination)
    os (chmod host.kernel (e.target destination) (if e.mode &&& 0o111 ≠ 0 then 0o755 else 0o644))

def pathText (p : Location) : String := "/" ++ "/".intercalate p.reverse

/-- What `validate_tree` says of a node below the root. -/
def checkNode (device : Nat) (entry : Location × Node) : Except String Unit :=
  if entry.2.device ≠ device ∨ entry.2.kind = .other then
    .error ("artifact contains a link, special file, or mount: " ++ pathText entry.1)
  else
    match entry.2.kind with
    | .regular _ links =>
        if links ≠ 1 then .error ("artifact contains a hard-linked file: " ++ pathText entry.1)
        else if (entry.1.headD "").toList.any isControl then
          .error "artifact filenames cannot contain control characters"
        else .ok ()
    | _ =>
        if (entry.1.headD "").toList.any isControl then
          .error "artifact filenames cannot contain control characters"
        else .ok ()

/-- `validate_tree`; the walk takes the nodes below the root in some order. -/
def validateTree (root : Location) : Io Unit := fun t =>
  match node? t root with
  | some ⟨.directory, _, device⟩ =>
      match (t.files.filter fun entry => decide (root <:+ entry.1 ∧ root ≠ entry.1)).forM (checkNode device) with
      | .ok _ => .ok () t
      | .error text => .error (.valueError text) t
  | _ => .error (.valueError "artifact root must be a real directory") t

def extract (host : Host) (limits : Limits) (archive : Archive) (destination : Location) (expected : String) : Io Unit :=
  if limits.maxBytes ≤ 0 ∨ limits.maxFiles ≤ 0 then
    throw (.valueError "artifact extraction limits must be positive")
  else
    match preflight host limits expected archive with
    | .error text => throw (.valueError text)
    | .ok entries => do
        entries.forM (extractEntry host destination)
        validateTree (expected :: destination)

end OraclePatching.Media
