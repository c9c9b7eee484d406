import MaterialViewer.Device.Basic

/-!
# Program cache

Programs are compiled once for each pair of sources. They are filed under a hash of their sources;
programs with the same hash share a bucket and are told apart by the sources themselves. Programs
that nobody holds are released on request.
-/

namespace MaterialViewer

/-- A compiled program with what it was compiled from. -/
structure CompiledProgram where
  /-- The program on the device. -/
  id : ProgramId
  /-- The name under which it was compiled first. -/
  name : String
  /-- Its sources. -/
  source : ProgramSource
deriving DecidableEq

/-- The compiled programs, in buckets by the hash of their sources. -/
structure ProgramCache where
  /-- The hash under which a program is filed. -/
  sourceHash : ProgramSource → UInt64 := hash
  /-- The buckets, one for each hash. -/
  buckets : List (UInt64 × List CompiledProgram) := []

namespace ProgramCache

/-- All programs. -/
def programs (c : ProgramCache) : List CompiledProgram := c.buckets.flatMap (·.2)

/-- The bucket for a hash. -/
def bucket (c : ProgramCache) (key : UInt64) : List CompiledProgram :=
  (c.buckets.lookup key).getD []

/-- The program with the given sources. -/
def find? (c : ProgramCache) (source : ProgramSource) : Option CompiledProgram :=
  (c.bucket (c.sourceHash source)).find? (·.source = source)

/-- Put a program at the end of a bucket. -/
def addTo (key : UInt64) (program : CompiledProgram) :
    List (UInt64 × List CompiledProgram) → List (UInt64 × List CompiledProgram)
  | [] => [(key, [program])]
  | (k, bucket) :: rest =>
    if k = key then (k, bucket ++ [program]) :: rest else (k, bucket) :: addTo key program rest

/-- The cache with one more program. -/
def insert (c : ProgramCache) (program : CompiledProgram) : ProgramCache :=
  { c with buckets := addTo (c.sourceHash program.source) program c.buckets }

/-- The cache with only the programs that satisfy `p`; empty buckets are dropped. -/
def filter (c : ProgramCache) (p : CompiledProgram → Bool) : ProgramCache :=
  { c with
    buckets := (c.buckets.map fun (key, bucket) => (key, bucket.filter p)).filter
      fun (_, bucket) => !bucket.isEmpty }

/-- The number of programs. -/
def size (c : ProgramCache) : Nat := c.programs.length

variable {δ : Type} [Device δ]

/-- The program for a pair of sources, compiled under a name if it is not in the cache. -/
def acquire (c : ProgramCache) (name : String) (source : ProgramSource) (device : δ) :
    Except CompileError CompiledProgram × ProgramCache × δ :=
  match c.find? source with
  | some program => (.ok program, c, device)
  | none =>
    match Device.compile device name source with
    | (.error reason, device) => (.error { name, reason, source }, c, device)
    | (.ok id, device) =>
      let program : CompiledProgram := { id, name, source }
      (.ok program, c.insert program, device)

/-- The programs that nobody holds. -/
def unused (c : ProgramCache) (held : List ProgramId) : List CompiledProgram :=
  c.programs.filter fun program => !held.contains program.id

/-- Release the programs that nobody holds. -/
def purge (c : ProgramCache) (held : List ProgramId) (device : δ) : ProgramCache × δ :=
  (c.filter fun program => held.contains program.id,
    (c.unused held).foldl
      (fun device program => Device.perform device (.releaseProgram program.id)) device)

end ProgramCache

end MaterialViewer
