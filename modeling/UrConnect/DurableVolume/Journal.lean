import UrConnect.Lib.JsonLines
import UrConnect.Lib.Runs

/-! The write-ahead control of a storage preparation: its records, the capacity an accepted plan reserves for them,
the runs that append them and the reader that resumes from them. -/

namespace UrConnect.DurableVolume.Journal

open UrConnect.Lib.JsonLines UrConnect.Lib.Runs

def maximumPreparationControlBytes : ℕ := 64 * 1024 * 1024

def maximumPreparationControlRecordBytes : ℕ := 64 * 1024

structure Identity where
  device : UInt64
  inode : UInt64
  mode : UInt32
  uid : UInt32
  gid : UInt32
  deriving DecidableEq

def Identity.zero : Identity := ⟨0, 0, 0, 0, 0⟩

def Identity.json (i : Identity) : Bytes :=
  object [("device", decimal i.device.toNat), ("inode", decimal i.inode.toNat), ("mode", decimal i.mode.toNat),
    ("uid", decimal i.uid.toNat), ("gid", decimal i.gid.toNat)]

inductive Kind
  | file
  | directory
  | rootDirectory
  | attr
  deriving DecidableEq

def Kind.name : Kind → Text
  | .file => "file".toList
  | .directory => "directory".toList
  | .rootDirectory => "root-directory".toList
  | .attr => "attribute".toList

structure File where
  path : Text
  kind : Kind
  mode : ℕ
  bytes : ℕ
  sha256 : Text
  deriving DecidableEq

def File.json (f : File) : Bytes :=
  object ([("path", quote f.path), ("kind", quote f.kind.name), ("mode", decimal f.mode),
    ("bytes", decimal f.bytes)] ++ unlessEmpty (f.sha256 ≠ []) "sha256" (quote f.sha256))

structure Source where
  file : File
  path : Text
  identity : Identity
  deriving DecidableEq

def Source.json (s : Source) : Bytes :=
  object [("file", s.file.json), ("path", quote s.path), ("identity", s.identity.json)]

structure Step where
  kind : Kind
  path : Text
  attr : Text := []
  mode : ℕ := 0
  bytes : ℕ := 0
  sha256 : Text := []
  source : Option Source := none
  raw : Bytes := []
  move : Bool := false
  deriving DecidableEq

def Step.fields (s : Step) : List Field :=
  [("kind", quote s.kind.name), ("path", quote s.path)] ++ unlessEmpty (s.attr ≠ []) "attribute" (quote s.attr) ++
    unlessEmpty (s.mode ≠ 0) "mode" (decimal s.mode) ++ unlessEmpty (s.bytes ≠ 0) "bytes" (decimal s.bytes) ++
    unlessEmpty (s.sha256 ≠ []) "sha256" (quote s.sha256) ++
    unlessEmpty s.source.isSome "source" (s.source.elim [] Source.json) ++
    unlessEmpty (s.raw ≠ []) "raw" (34 :: base64 s.raw ++ [34]) ++ unlessEmpty s.move "move" (ascii "true")

def Step.json (s : Step) : Bytes := object s.fields

inductive Phase
  | pending
  | complete
  | unknown (name : Text)
  deriving DecidableEq

def Phase.name : Phase → Text
  | .pending => "pending".toList
  | .complete => "complete".toList
  | .unknown name => name

structure Header where
  schema : Text
  planSha256 : Text
  cohortSha256 : Text
  root : Identity
  control : Identity
  deriving DecidableEq

def Header.json (h : Header) : Bytes :=
  object ([("schema", quote h.schema), ("plan_sha256", quote h.planSha256)] ++
    unlessEmpty (h.cohortSha256 ≠ []) "cohort_sha256" (quote h.cohortSha256) ++
    [("root", h.root.json), ("control", h.control.json)])

structure Record where
  sequence : ℕ
  previousSha256 : Text
  phase : Phase
  step : Step
  identity : Identity
  sha256 : Text
  deriving DecidableEq

def Record.fields (r : Record) : List Field :=
  [("sequence", decimal r.sequence), ("previous_sha256", quote r.previousSha256), ("phase", quote r.phase.name),
    ("step", r.step.json), ("identity", r.identity.json), ("sha256", quote r.sha256)]

def Record.json (r : Record) : Bytes := object r.fields

section Texts

lemma Identity.json_oneLine (i : Identity) : OneLine i.json := by
  refine oneLine_object ?_
  simp only [List.forall_mem_cons, oneLine_decimal]
  decide

lemma File.json_oneLine (f : File) : OneLine f.json := by
  refine oneLine_object (List.forall_mem_append.2 ⟨?_, oneLine_unlessEmpty (by decide) (oneLine_quote _)⟩)
  simp only [List.forall_mem_cons, oneLine_decimal, oneLine_quote]
  decide

lemma Source.json_oneLine (s : Source) : OneLine s.json := by
  refine oneLine_object ?_
  simp only [List.forall_mem_cons, File.json_oneLine, oneLine_quote, Identity.json_oneLine]
  decide

lemma Step.json_oneLine (s : Step) : OneLine s.json := by
  refine oneLine_object ?_
  have hsource : OneLine (s.source.elim [] Source.json) := by
    cases s.source with
    | none => exact oneLine_nil
    | some source => exact source.json_oneLine
  have hraw : OneLine (34 :: base64 s.raw ++ [34]) := by simp [oneLine_base64]
  simp only [Step.fields, List.forall_mem_append]
  refine ⟨⟨⟨⟨⟨⟨⟨?_, ?_⟩, ?_⟩, ?_⟩, ?_⟩, ?_⟩, ?_⟩, ?_⟩
  · simp only [List.forall_mem_cons, oneLine_quote]
    decide
  · exact oneLine_unlessEmpty (by decide) (oneLine_quote _)
  · exact oneLine_unlessEmpty (by decide) (oneLine_decimal _)
  · exact oneLine_unlessEmpty (by decide) (oneLine_decimal _)
  · exact oneLine_unlessEmpty (by decide) (oneLine_quote _)
  · exact oneLine_unlessEmpty (by decide) hsource
  · exact oneLine_unlessEmpty (by decide) hraw
  · exact oneLine_unlessEmpty (by decide) (by decide)

lemma Header.json_oneLine (h : Header) : OneLine h.json := by
  refine oneLine_object (List.forall_mem_append.2 ⟨List.forall_mem_append.2 ⟨?_, ?_⟩, ?_⟩)
  · simp only [List.forall_mem_cons, oneLine_quote]
    decide
  · exact oneLine_unlessEmpty (by decide) (oneLine_quote _)
  · simp only [List.forall_mem_cons, Identity.json_oneLine]
    decide

lemma Record.json_oneLine (r : Record) : OneLine r.json := by
  refine oneLine_object ?_
  simp only [Record.fields, List.forall_mem_cons, oneLine_decimal, oneLine_quote, Step.json_oneLine,
    Identity.json_oneLine]
  decide

end Texts

/-- The standard library's path functions, and the test of a member path against the depth limit. -/
structure Paths where
  join : Text → Text → Text
  dir : Text → Text
  base : Text → Text
  relative : Text → ℕ → Bool → Bool

inductive Purpose
  | fresh
  | restore
  deriving DecidableEq

inductive Scope
  | daemon
  | ownerLocal
  deriving DecidableEq

structure Limits where
  maxEntries : ℕ
  maxBytes : ℕ
  maxDepth : ℕ
  maxOwnerAttributes : ℕ
  maxOwnerAttributeBytes : ℕ
  maxPlanBytes : ℕ
  deriving DecidableEq

structure Request where
  purpose : Purpose
  scope : Scope
  capacityProfile : Text
  mountPath : Text
  filesystemUuid : Text
  filesystemType : Text
  minAvailableBytes : ℕ
  minAvailableInodes : ℕ
  rootPath : Text
  rootCreation : Text
  markerPath : Text
  leasePath : Text
  declarationPath : Text
  stagingDirectory : Text
  limits : Limits
  owners : ℕ
  deriving DecidableEq

structure AttributeSpec where
  path : Text
  name : Text
  deriving DecidableEq

structure OwnerPlan where
  stagingName : Text
  exclusiveRoot : Bool
  files : List File
  attributes : List AttributeSpec
  census : Bytes
  physicalMetadata : Bool
  deriving DecidableEq

structure Plan where
  root : Identity
  rootSource : Text
  nonce : Bytes
  generation : Bytes
  marker : Bytes
  lease : Bytes
  owners : List OwnerPlan
  sources : List Source
  deriving DecidableEq

def indented (opening closing : ℕ) (depth : ℕ) (members : List Bytes) : Bytes :=
  opening :: (members.flatMap fun m => 10 :: List.replicate (2 * depth + 2) 32 ++ m ++ [44]).dropLast ++
    10 :: List.replicate (2 * depth) 32 ++ [closing]

def indentedMember (key : String) (value : Bytes) : Bytes := 34 :: ascii key ++ [34, 58, 32] ++ value

def Request.declaration (r : Request) (inode : UInt64) (generation marker lease : Text) : Bytes :=
  let stateRoot := indented 123 125 4 [indentedMember "path" (quote r.rootPath),
    indentedMember "lease_path" (quote r.leasePath), indentedMember "lease_sha256" (quote lease),
    indentedMember "root_inode" (decimal inode.toNat), indentedMember "generation_sha256" (quote generation)]
  let volume := indented 123 125 2 [indentedMember "mount_path" (quote r.mountPath),
    indentedMember "filesystem_uuid" (quote r.filesystemUuid), indentedMember "filesystem_type" (quote r.filesystemType),
    indentedMember "marker_path" (quote r.markerPath), indentedMember "marker_sha256" (quote marker),
    indentedMember "state_roots" (indented 91 93 3 [stateRoot]),
    indentedMember "min_available_bytes" (decimal r.minAvailableBytes),
    indentedMember "min_available_inodes" (decimal r.minAvailableInodes)]
  let schema := match r.scope with
    | .daemon => "urnetwork-durable-volumes-v2"
    | .ownerLocal => "urnetwork-owner-local-volumes-v2"
  indented 123 125 0 [indentedMember "schema" (quote schema.toList),
    indentedMember "volumes" (indented 91 93 1 [volume])] ++ [10]

def createPrivate : Text := "create-private".toList

def rootGenerationAttribute : Text := "user.urnetwork.durable-root-generation".toList

def preparationAttribute : Text := "user.urnetwork.storage-preparation".toList

def preparationControlSchema : Text := "urnetwork-storage-preparation-control-v1".toList

def preparationRootStep (request : Request) (plan : Plan) : Step :=
  { kind := .rootDirectory, path := request.rootPath, mode := 0o700,
    source := some ⟨⟨".".toList, .directory, 0o700, 0, []⟩, plan.rootSource, plan.root⟩ }

section Steps

variable (paths : Paths)

def preparationSourceMoves (plan : Plan) (source : Source) : Bool :=
  plan.owners.any fun owner =>
    owner.physicalMetadata && decide (paths.base (paths.dir source.path) = owner.stagingName)

def sourceStep (request : Request) (plan : Plan) (source : Source) : Step :=
  { kind := source.file.kind, path := paths.join request.rootPath source.file.path, mode := source.file.mode,
    bytes := source.file.bytes, sha256 := source.file.sha256, move := preparationSourceMoves paths plan source,
    source := if source.file.kind = .file then some source else none }

def attributePath (request : Request) (spec : AttributeSpec) : Text :=
  if spec.path = ".".toList then request.rootPath else paths.join request.rootPath spec.path

def attributeStep (digest path name : Text) (raw : Bytes) : Step :=
  { kind := .attr, path := path, attr := name, bytes := raw.length, sha256 := digest, raw := raw }

def metadataStep (digest path : Text) (raw : Bytes) : Step :=
  { kind := .file, path := path, mode := 0o600, bytes := raw.length, sha256 := digest, raw := raw }

def widestDigest : Text := "sha256:".toList ++ List.replicate 64 'f'

def widestIdentity : Identity := ⟨-1, -1, -1, -1, -1⟩

def widestRecord (step : Step) : Record :=
  ⟨2 ^ 64 - 1, widestDigest, .complete, step, widestIdentity, widestDigest⟩

def reserved (step : Step) : ℕ := (widestRecord step).json.length + 1

def reserve (used : ℕ) (step : Step) : Option ℕ :=
  if maximumPreparationControlRecordBytes < reserved step then none
  else if maximumPreparationControlBytes - used < 2 * reserved step then none
  else some (used + 2 * reserved step)

def reservedSteps (request : Request) (plan : Plan) : List Step :=
  (if request.rootCreation = createPrivate then [preparationRootStep request plan] else []) ++
    attributeStep widestDigest request.rootPath rootGenerationAttribute plan.generation ::
    plan.sources.map (sourceStep paths request plan) ++
    (plan.owners.flatMap fun owner => owner.attributes.map fun spec =>
      attributeStep widestDigest (attributePath paths request spec) spec.name (List.replicate 4096 0)) ++
    [metadataStep widestDigest request.markerPath plan.marker, metadataStep widestDigest request.leasePath plan.lease,
      metadataStep widestDigest request.declarationPath
        (request.declaration plan.root.inode widestDigest widestDigest widestDigest)]

def widestHeader (cohort : Bool) : Header :=
  ⟨preparationControlSchema, widestDigest, if cohort then widestDigest else [], widestIdentity, widestIdentity⟩

def preparationControlCapacity (request : Request) (plan : Plan) (cohort : Bool) : Option ℕ :=
  (reservedSteps paths request plan).foldlM reserve ((widestHeader cohort).json.length + 1)

end Steps

def validDigest (value : Text) : Bool :=
  decide (value.length = 71) && "sha256:".toList.isPrefixOf value &&
    (value.drop 7).all fun c => c.isDigit || decide ('a' ≤ c ∧ c ≤ 'f')

/-- What the plan reader learns elsewhere: the protected reads and strict decodings, the parts of the request's
validation and of the plan's authentication that read no capacity, and what the staged members show. -/
structure PlanReader where
  decoded : Option (Plan × Request × ℕ)
  shape : Request → Bool
  authentic : Plan → Request → Bool
  metadata : Request → OwnerPlan → Bool
  opened : Request → OwnerPlan → File → Option Identity

def Request.profile (r : Request) : Option (ℕ × ℕ) :=
  if r.capacityProfile = [] then some (32, 128)
  else if r.capacityProfile = "urnetwork-preparation-many-owners-v1".toList then some (2048, 2048)
  else none

def maximumPhysicalInventoryEntries : ℕ := 32768

def Limits.within (l : Limits) (purpose : Purpose) (attributes : ℕ) : Prop :=
  0 < l.maxEntries ∧ l.maxEntries ≤ (if purpose = .restore then maximumPhysicalInventoryEntries else 10000) ∧
  0 < l.maxBytes ∧ l.maxBytes ≤ 1024 * 1024 * 1024 * 1024 ∧
  0 < l.maxDepth ∧ l.maxDepth ≤ (if purpose = .restore then 32 else 16) ∧
  0 < l.maxOwnerAttributes ∧ l.maxOwnerAttributes ≤ attributes ∧
  0 < l.maxOwnerAttributeBytes ∧ l.maxOwnerAttributeBytes ≤ attributes * 4096 ∧
  4096 ≤ l.maxPlanBytes ∧ l.maxPlanBytes ≤ 8 * 1024 * 1024

instance (l : Limits) (p : Purpose) (n : ℕ) : Decidable (l.within p n) := by
  unfold Limits.within
  infer_instance

def Request.validate (reader : PlanReader) (r : Request) : Bool :=
  reader.shape r && r.profile.any fun profile =>
    decide (r.limits.within r.purpose profile.2 ∧ 0 < r.owners ∧ r.owners ≤ profile.1)

structure Bound where
  seen : List Text
  attributes : List Text
  bytesUsed : ℕ
  attributesUsed : ℕ
  sources : List Source

section Reading

variable (paths : Paths) (reader : PlanReader)

def validMember (request : Request) (file : File) : Bool :=
  paths.relative file.path request.limits.maxDepth false && decide (file.mode &&& 0o77 = 0) &&
    decide (file.mode ||| 0o700 = 0o700) &&
    match file.kind with
    | .file => validDigest file.sha256 && decide (file.mode &&& 0o100 = 0)
    | .directory => decide (file.bytes = 0) && decide (file.sha256 = []) && decide (file.mode &&& 0o100 ≠ 0)
    | .rootDirectory => false
    | .attr => false

def bindFile (request : Request) (owner : OwnerPlan) (b : Bound) (file : File) : Option Bound :=
  if validMember paths request file = false ∨ file.path ∈ b.seen then none
  else if request.limits.maxEntries ≤ b.seen.length ∨ request.limits.maxBytes - b.bytesUsed < file.bytes then none
  else (reader.opened request owner file).map fun identity =>
    { b with
      seen := file.path :: b.seen
      bytesUsed := b.bytesUsed + file.bytes
      sources := b.sources ++
        [⟨file, paths.join (paths.join request.stagingDirectory owner.stagingName) file.path, identity⟩] }

def attributeKey (spec : AttributeSpec) : Text := spec.path ++ '\x00' :: spec.name

def bindAttribute (request : Request) (b : Bound) (spec : AttributeSpec) : Option Bound :=
  if paths.relative spec.path request.limits.maxDepth true = false ∨
      "user.urnetwork.".toList.isPrefixOf spec.name = false ∨ 255 < (spec.name.flatMap fun c => utf8 c.toNat).length ∨
      spec.name = preparationAttribute ∨ spec.name = rootGenerationAttribute ∨
      attributeKey spec ∈ b.attributes then none
  else some { b with
    attributes := attributeKey spec :: b.attributes
    attributesUsed := b.attributesUsed + 1 }

def bindOwner (request : Request) (count : ℕ) (b : Bound) (owner : OwnerPlan) : Option Bound :=
  if reader.metadata request owner = false ∨ owner.census = [] ∨ owner.files = [] ∧ owner.attributes = [] ∨
      owner.exclusiveRoot ∧ count ≠ 1 then none
  else do
    let files ← owner.files.foldlM (bindFile paths reader request owner) b
    owner.attributes.foldlM (bindAttribute paths request) files

def Source.before (a b : Source) : Prop :=
  a.file.path.count '/' < b.file.path.count '/' ∨
    a.file.path.count '/' = b.file.path.count '/' ∧ a.file.path ≤ b.file.path

instance : DecidableRel Source.before := fun a b => by
  unfold Source.before
  infer_instance

def bindPreparationSources (request : Request) (owners : List OwnerPlan) : Option (List Source) := do
  let b ← owners.foldlM (bindOwner paths reader request owners.length) ⟨[], [], 0, 0, []⟩
  if request.limits.maxOwnerAttributes < b.attributesUsed ∨
      request.limits.maxOwnerAttributeBytes < b.attributesUsed * 4096 then none
  else if ∃ owner ∈ owners, ∃ spec ∈ owner.attributes, spec.path ≠ ".".toList ∧ spec.path ∉ b.seen then none
  else if ∃ name ∈ b.seen, paths.dir name ≠ ".".toList ∧
      ∀ source ∈ b.sources, source.file.path = paths.dir name → source.file.kind ≠ .directory then none
  else some (b.sources.insertionSort Source.before)

def readPreparationPlan : Option (Plan × Request) := do
  let (plan, request, size) ← reader.decoded
  if request.validate reader = false then none
  else if plan.nonce.length ≠ 32 ∨ plan.generation.length ≠ 32 ∨ plan.marker.length ≠ 32 ∨ plan.lease.length ≠ 32 ∨
      request.limits.maxPlanBytes < size ∨ plan.owners.length ≠ request.owners ∨
      reader.authentic plan request = false then none
  else do
    let sources ← bindPreparationSources paths reader request plan.owners
    if plan.sources ≠ sources then none
    else do
      let _ ← preparationControlCapacity paths request plan false
      some (plan, request)

end Reading

structure Control where
  header : Header
  records : List Record
  tail : Bytes

def Control.lines (c : Control) : List Bytes := c.header.json :: c.records.map Record.json

def Control.bytes (c : Control) : Bytes := (c.lines.flatMap fun l => l ++ [10]) ++ c.tail

structure Session where
  previous : Text
  sequence : ℕ
  completed : List Record
  pending : Option Record
  position : ℕ
  size : ℕ

inductive ReadFault
  | totalSize
  | partialTail
  | headerAbsent
  | lineLength
  | recordCount
  | malformed
  deriving DecidableEq

def ReadFault.IsLimit (f : ReadFault) : Prop :=
  f = .totalSize ∨ f = .headerAbsent ∨ f = .lineLength ∨ f = .recordCount

inductive Fault
  | refused
  | capacity
  | uncertain
  | unreadable (fault : ReadFault)
  deriving DecidableEq

section Sessions

variable (hash : Bytes → Fin 64 → Fin 16)

def hexChar (d : Fin 16) : Char := Char.ofNat (hexDigit d)

def preparationDigest (raw : Bytes) : Text := "sha256:".toList ++ List.ofFn fun i => hexChar (hash raw i)

def recordLimit (l : Limits) : ℕ := 2 * (l.maxEntries + l.maxOwnerAttributes + 8) % 2 ^ 64

def readRecord (l : Limits) (s : Session) (record : Record) : Except ReadFault Session :=
  if recordLimit l ≤ s.sequence then .error .recordCount
  else if record.sequence ≠ (s.sequence + 1) % 2 ^ 64 ∨ record.previousSha256 ≠ s.previous ∨
      preparationDigest hash { record with sha256 := [] }.json ≠ record.sha256 then .error .malformed
  else match record.phase, s.pending with
    | .pending, none =>
        if record.identity ≠ .zero then .error .malformed
        else .ok { s with sequence := record.sequence, previous := record.sha256, pending := some record }
    | .complete, some intent =>
        if intent.step ≠ record.step ∨ record.identity.inode = 0 then .error .malformed
        else .ok { s with
          sequence := record.sequence, previous := record.sha256, pending := none
          completed := s.completed ++ [record] }
    | .pending, some _ => .error .malformed
    | .complete, none => .error .malformed
    | .unknown _, _ => .error .malformed

def startSession (header : Bytes) (size : ℕ) : Session := ⟨preparationDigest hash header, 0, [], none, 0, size⟩

def dropReturn (line : Bytes) : Bytes := if line.getLast? = some 13 then line.dropLast else line

structure Decoder where
  header : Bytes → Option Header
  record : Bytes → Option Record

def readLine (decoder : Decoder) (l : Limits) (s : Session) (line : Bytes) : Except ReadFault Session :=
  if recordLimit l ≤ s.sequence then .error .recordCount
  else match decoder.record (dropReturn line) with
    | none => .error .malformed
    | some record => readRecord hash l s record

/-- The scanner doubles its buffer up to the record limit and looks for a line feed before it finds the buffer full,
so that it delivers exactly the lines that fit the limit with their line feed. -/
def fitsScanner (line : Bytes) : Bool := decide (line.length + 1 ≤ maximumPreparationControlRecordBytes)

def readControl (decoder : Decoder) (l : Limits) (raw : Bytes) : Except ReadFault Session :=
  if raw.length = 0 ∨ maximumPreparationControlBytes < raw.length then .error .totalSize
  else if raw.getLast? ≠ some 10 then .error .partialTail
  else match (splitLines raw).1.takeWhile fitsScanner with
    | [] => .error .headerAbsent
    | header :: records =>
        if (decoder.header (dropReturn header)).isNone then .error .malformed
        else do
          let s ← records.foldlM (readLine hash decoder l) (startSession hash (dropReturn header) raw.length)
          if records.length + 1 < (splitLines raw).1.length then .error .lineLength else .ok s

def Control.reopen (c : Control) (l : Limits) : Except ReadFault Session :=
  if c.tail ≠ [] then .error .partialTail
  else c.records.foldlM (readRecord hash l) (startSession hash c.header.json c.bytes.length)

inductive Written
  | acknowledged
  | lost
  | torn (count : ℕ)

structure Reply where
  checked : Bool
  absent : Bool
  observed : Option Identity
  pendingWrite : Written
  completeWrite : Written

def nextRecord (s : Session) (phase : Phase) (step : Step) (identity : Identity) : Record :=
  let record : Record := ⟨(s.sequence + 1) % 2 ^ 64, s.previous, phase, step, identity, []⟩
  { record with sha256 := preparationDigest hash record.json }

def Session.appended (s : Session) (record : Record) : Session :=
  let s := { s with
    sequence := record.sequence, previous := record.sha256, size := s.size + (record.json.length + 1) }
  if record.phase = .pending then { s with pending := some record }
  else { s with pending := none, completed := s.completed ++ [record] }

def append (written : Written) (phase : Phase) (step : Step) (identity : Identity) (c : Control) (s : Session) :
    Control × Except Fault Session :=
  let record := nextRecord hash s phase step identity
  let raw := record.json ++ [10]
  if maximumPreparationControlRecordBytes < raw.length ∨
      maximumPreparationControlBytes - raw.length < s.size then (c, .error .capacity)
  else match written with
    | .torn count =>
        if count < raw.length then ({ c with tail := raw.take count }, .error .uncertain)
        else ({ c with records := c.records ++ [record] }, .error .uncertain)
    | .lost => ({ c with records := c.records ++ [record] }, .error .uncertain)
    | .acknowledged => ({ c with records := c.records ++ [record] }, .ok (s.appended record))

def complete (reply : Reply) (step : Step) (c : Control) (s : Session) : Control × Except Fault Session :=
  match reply.observed with
  | none => (c, .error .refused)
  | some identity =>
      match append hash reply.completeWrite .complete step identity c s with
      | (c, .error f) => (c, .error f)
      | (c, .ok s) => (c, .ok { s with position := s.position + 1 })

def step (reply : Reply) (step : Step) (c : Control) (s : Session) : Control × Except Fault Session :=
  if reply.checked = false then (c, .error .refused)
  else match s.completed[s.position]? with
    | some completed =>
        if completed.step ≠ step ∨ reply.observed ≠ some completed.identity then (c, .error .refused)
        else (c, .ok { s with position := s.position + 1 })
    | none =>
        match s.pending with
        | some pending => if pending.step ≠ step then (c, .error .refused) else complete hash reply step c s
        | none =>
            if reply.absent = false then (c, .error .refused)
            else match append hash reply.pendingWrite .pending step .zero c s with
              | (c, .error f) => (c, .error f)
              | (c, .ok s) => complete hash reply step c s

structure PreparedAttribute where
  spec : AttributeSpec
  raw : Bytes
  deriving DecidableEq

inductive Move
  | step (s : Step)
  | check
  | stop

variable (paths : Paths)

def attributeMoves (request : Request) : List AttributeSpec → List PreparedAttribute → ℕ → List Move
  | spec :: specs, a :: rest, used =>
      if a.spec ≠ spec ∨ a.raw = [] ∨ 4096 < a.raw.length ∨
          request.limits.maxOwnerAttributeBytes - used < a.raw.length then [.stop]
      else .step (attributeStep (preparationDigest hash a.raw) (attributePath paths request a.spec) a.spec.name a.raw) ::
        attributeMoves request specs rest (used + a.raw.length)
  | [], _, _ => []
  | _, [], _ => []

def ownerMoves (request : Request) (inspect : ℕ → OwnerPlan → Option (List PreparedAttribute)) :
    List OwnerPlan → ℕ → List Move
  | [], _ => []
  | owner :: rest, used => .check :: match inspect rest.length owner with
      | none => [.stop]
      | some attributes =>
          if attributes.length ≠ owner.attributes.length then [.stop]
          else attributeMoves hash paths request owner.attributes attributes used ++
            ownerMoves request inspect rest (used + (attributes.map fun a => a.raw.length).sum)

def runMoves (request : Request) (plan : Plan) (inspect : ℕ → OwnerPlan → Option (List PreparedAttribute)) :
    List Move :=
  let digest := preparationDigest hash
  let declaration := request.declaration plan.root.inode (digest plan.generation) (digest plan.marker) (digest plan.lease)
  (if request.rootCreation = createPrivate then [.step (preparationRootStep request plan)] else []) ++
    .step (attributeStep (digest plan.generation) request.rootPath rootGenerationAttribute plan.generation) ::
    plan.sources.map (fun source => .step (sourceStep paths request plan source)) ++
    ownerMoves hash paths request inspect plan.owners 0 ++
    [.step (metadataStep (digest plan.marker) request.markerPath plan.marker),
      .step (metadataStep (digest plan.lease) request.leasePath plan.lease), .check, .check,
      .step (metadataStep (digest declaration) request.declarationPath declaration), .check]

/-- The moves in order, until one of them refuses; the reply to a move is found by the number of moves after it. -/
def execute (replies : ℕ → Reply) : List Move → Control → Session → Control × Except Fault Session
  | [], c, s => (c, .ok s)
  | .stop :: _, c, _ => (c, .error .refused)
  | .check :: rest, c, s =>
      if (replies rest.length).checked = false then (c, .error .refused) else execute replies rest c s
  | .step st :: rest, c, s =>
      match step hash (replies rest.length) st c s with
      | (c, .error f) => (c, .error f)
      | (c, .ok s) => execute replies rest c s

structure Invocation where
  inspect : ℕ → OwnerPlan → Option (List PreparedAttribute)
  replies : ℕ → Reply

/-- Reopen the control and run the plan. A run that finds intent it did not consume refuses at its end. -/
def invoke (request : Request) (plan : Plan) (c : Control) (i : Invocation) : Control × Except Fault Session :=
  match c.reopen hash request.limits with
  | .error f => (c, .error (.unreadable f))
  | .ok s =>
      match execute hash i.replies (runMoves hash paths request plan i.inspect) c s with
      | (c, .error f) => (c, .error f)
      | (c, .ok s) => if s.pending.isSome ∨ s.position ≠ s.completed.length then (c, .error .refused) else (c, .ok s)

def createdControl (plan : Plan) (planRaw : Bytes) (cohortRaw : Option Bytes) (identity : Identity) : Control :=
  ⟨⟨preparationControlSchema, preparationDigest hash planRaw, cohortRaw.elim [] (preparationDigest hash), plan.root,
    identity⟩, [], []⟩

def controlAfter (request : Request) (plan : Plan) (c : Control) (invocations : List Invocation) : Control :=
  run (fun c i => (invoke hash paths request plan c i).1) c invocations

end Sessions

end UrConnect.DurableVolume.Journal
