import UrConnect.DurableVolume.Journal
import UrConnect.Lib.Programs

/-! Cohort preparation against any answers of the file system: the observers and steps that publication and read-only
preflight share, and the admission of every member before the first of them is published. -/

namespace UrConnect.DurableVolume.Cohort

open UrConnect.Lib.JsonLines UrConnect.Lib.Programs UrConnect.Lib.Programs.Prog
open UrConnect.DurableVolume.Journal (Identity Kind Step Record Request Plan OwnerPlan PreparedAttribute Paths Session
  Source createPrivate rootGenerationAttribute preparationAttribute preparationDigest preparationRootStep sourceStep
  preparationSourceMoves attributePath attributeStep metadataStep maximumPreparationControlBytes
  maximumPreparationControlRecordBytes nextRecord preparationControlCapacity)

local instance : LawfulBEq Text := inferInstance

inductive Errno
  | notExist
  | noData
  | alreadyExists
  | identity
  | other
  deriving DecidableEq

inductive Leaf
  | errno (e : Errno)
  | incomplete
  | uncertain
  deriving DecidableEq

inductive Query
  | readCohort
  | fileSize (path : Text)
  | openApplication (index : ℕ)
  | namespaces
  | retained
  | reserves
  | checkRetained
  | context
  | check
  | checkRestore
  | census (partly : Bool)
  | close
  | openControl (path : Text)
  | lock (path : Text)
  | protection (path : Text)
  | identity (path : Text)
  | stat (path : Text)
  | readControl (path : Text)
  | attributeTarget (path : Text)
  | readAttribute (path name : Text)
  | listAttributes (path : Text)
  | empty (path : Text)
  | noAttributes (path : Text)
  | absent (path : Text)
  | parent (path : Text)
  | openMember (path : Text)
  | verifyFile (path : Text)
  | sameMember (path : Text)
  | inspect (owner : ℕ)
  | declaration
  | hook (path : Text)

inductive Effect
  | createFile (path : Text)
  | makeDirectory (path : Text)
  | write (path : Text)
  | rename (source target : Text)
  | createAttribute (path name : Text)
  | sync (path : Text)

inductive Op
  | query (q : Query)
  | effect (e : Effect)

structure Member where
  plan : Plan
  request : Request
  controlPath : Text
  rootAtTarget : Bool

structure Answer where
  errors : List Errno
  identity : Identity
  bytes : Bytes
  names : List Text
  size : ℕ
  matched : Bool
  session : Session
  prepared : List PreparedAttribute
  member : Member

structure Apply where
  member : Member
  session : Session
  control : Bool
  anchored : Bool
  retained : List Text
  attributes : List (Text × Text)
  failed : List Leaf
  mutated : Bool
  readOnly : Bool
  complete : Bool

abbrev Run (α : Type) : Type := Prog (List Leaf) Op Apply α

def identityLost : List Leaf := [.errno .identity]

def refusal : List Leaf := [.errno .other]

section Calls

variable (env : List Op → Op → Answer)

def ask (q : Query) : Run Answer := perform env (.query q)

def act (e : Effect) : Run Answer := perform env (.effect e)

def accept (a : Answer) : Run Unit := if a.errors = [] then pure () else fail (a.errors.map .errno)

def demand (q : Query) : Run Answer := do
  let a ← ask env q
  accept a
  pure a

def demandAll : List Query → Run Unit
  | [] => pure ()
  | q :: qs => joining (do let _ ← demand env q; pure ()) (demandAll qs)

def carry (e : Effect) : Run Unit := do
  let a ← act env e
  accept a

def closing {α : Type} (p : Run α) : Run α := joining p (demandAll env [.close])

def whenever (b : Prop) [Decidable b] (p : Run Unit) : Run Unit := if b then p else pure ()

def refuseIf (b : Prop) [Decidable b] (e : List Leaf) : Run Unit := if b then fail e else pure ()

def uncertain {α : Type} (e : List Leaf) : Run α :=
  if .errno .identity ∈ e then do
    update fun s => { s with failed := e }
    fail e
  else do
    update fun s => { s with failed := .uncertain :: e }
    fail (.uncertain :: e)

/-- The deferred handler of an observer: a failure after its first mutation is uncertain. -/
def tracked {α : Type} (p : Run α) : Run α := do
  update fun s => { s with mutated := false }
  onFailure p fun e => do
    let s ← self
    if s.mutated then uncertain e else fail e

def mark : Run Unit := update fun s => { s with mutated := true }

def retain (path : Text) : Run Unit := update fun s => { s with retained := path :: s.retained }

def check : Run Unit := do
  let s ← self
  if s.failed ≠ [] then fail s.failed else demandAll env [.check]

def after (path : Text) : Run Unit := demandAll env [.hook path]

end Calls

section Observers

variable (env : List Op → Op → Answer) (hash : Bytes → Fin 64 → Fin 16) (paths : Paths)

def requireAbsent (step : Step) : Run Unit :=
  if step.kind = .attr then do
    let _ ← demand env (.attributeTarget step.path)
    let a ← ask env (.readAttribute step.path step.attr)
    let _ ← ask env .close
    if .noData ∈ a.errors then pure ()
    else if a.errors ≠ [] then fail (a.errors.map .errno)
    else fail identityLost
  else do
    let _ ← demand env (.parent step.path)
    let a ← ask env (.absent step.path)
    let _ ← ask env .close
    accept a

def createAttribute (path name : Text) (raw : Bytes) : Run Unit := do
  refuseIf (raw = [] ∨ 4096 < raw.length) refusal
  carry env (.createAttribute path name)
  carry env (.sync path)

def copyChunks (path : Text) : ℕ → Run Unit
  | 0 => demandAll env [.context]
  | n + 1 => do
      demandAll env [.context, .verifyFile path]
      carry env (.write path)
      copyChunks path n

def copyFile (step : Step) : Run Unit :=
  match step.source with
  | some source => do
      let _ ← demand env (.openMember source.path)
      closing env do
        let a ← demand env (.identity source.path)
        refuseIf (a.identity ≠ source.identity) identityLost
        let _ ← demand env (.verifyFile source.path)
        copyChunks env step.path ((step.bytes + 65535) / 65536)
  | none => do
      refuseIf (step.raw.length ≠ step.bytes ∨ preparationDigest hash step.raw ≠ step.sha256) refusal
      copyChunks env step.path ((step.bytes + 65535) / 65536)

def attributeValue (step : Step) (pending : Bool) : Run Answer := do
  let a ← ask env (.readAttribute step.path step.attr)
  if .noData ∈ a.errors ∧ pending = true then do
    check env
    mark
    createAttribute env step.path step.attr step.raw
    onFailure (after env step.path) uncertain
    ask env (.readAttribute step.path step.attr)
  else pure a

def observeAttribute (step : Step) (pending : Bool) : Run Identity := tracked do
  let _ ← demand env (.attributeTarget step.path)
  closing env do
    let id ← demand env (.identity step.path)
    let a ← attributeValue env step pending
    accept a
    refuseIf (a.bytes ≠ step.raw ∨ a.bytes.length ≠ step.bytes ∨ preparationDigest hash a.bytes ≠ step.sha256)
      identityLost
    whenever (pending = true) do
      mark
      onFailure (carry env (.sync step.path)) uncertain
    update fun s => { s with attributes := (step.path, step.attr) :: s.attributes }
    let s ← self
    whenever (step.path ∈ s.retained) (demandAll env [.stat step.path])
    check env
    pure id.identity

def ownerAttributeNamespace : Text := "user.urnetwork.".toList

def freshReservedRoot : Run Unit := do
  let s ← self
  let _ ← demand env (.empty s.member.request.rootPath)
  let a ← demand env (.listAttributes s.member.request.rootPath)
  refuseIf (∃ name ∈ a.names, ownerAttributeNamespace.isPrefixOf name = true ∧ name ≠ preparationAttribute) identityLost
  check env

def renameReviewed (source target : Text) : Run Unit := do
  let a ← act env (.rename source target)
  if .alreadyExists ∈ a.errors then fail (identityLost ++ a.errors.map .errno)
  else if a.errors ≠ [] then uncertain (a.errors.map .errno)
  else pure ()

def syncBoth (a b : Text) : Run Unit := joining (carry env (.sync a)) (carry env (.sync b))

def publishRoot (m : Member) : Run Unit := do
  freshReservedRoot env
  whenever (m.rootAtTarget = false) do
    renameReviewed env m.plan.rootSource m.request.rootPath
    mark
    update fun s => { s with member := { s.member with rootAtTarget := true } }
    after env m.request.rootPath
  mark
  syncBoth env m.request.rootPath m.request.stagingDirectory
  after env m.request.rootPath
  carry env (.sync (paths.dir m.request.rootPath))
  after env m.request.rootPath

def observeRoot (step : Step) (pending : Bool) : Run Identity := do
  let s ← self
  refuseIf (s.member.request.rootCreation ≠ createPrivate ∨
    step ≠ preparationRootStep s.member.request s.member.plan) identityLost
  tracked do
    refuseIf (pending = false ∧ s.member.rootAtTarget = false) identityLost
    whenever (pending = true) (publishRoot env paths s.member)
    check env
    let id ← demand env (.identity s.member.request.rootPath)
    refuseIf (id.identity ≠ s.member.plan.root) identityLost
    pure id.identity

def reviewedSource (plan : Plan) (path : Text) : Option Source :=
  plan.sources.reverse.find? fun source => preparationSourceMoves paths plan source && decide (source.path = path)

def openMoved (path : Text) : Run Bool := do
  let a ← ask env (.openMember path)
  if .notExist ∈ a.errors then pure false
  else do
    accept a
    let _ ← demand env (.protection path)
    pure true

def publishMove (source target : Text) (pending present : Bool) : Run Unit := do
  whenever (present = true) do
    joining (demandAll env [.sameMember source]) (check env)
    renameReviewed env source target
    mark
    after env target
  demandAll env [.sameMember target, .absent source]
  whenever (pending = true) do
    mark
    syncBoth env target (paths.dir source)
    after env target
    carry env (.sync (paths.dir target))
    after env target

def observeMovedRestoreFile (step : Step) (pending : Bool) : Run Identity := do
  let s ← self
  match step.source.bind fun source => reviewedSource paths s.member.plan source.path with
  | none => fail identityLost
  | some reviewed => do
      refuseIf (s.member.request.purpose ≠ .restore ∨ step.kind ≠ .file ∨ step ≠
        { kind := .file, path := paths.join s.member.request.rootPath reviewed.file.path, mode := reviewed.file.mode,
          bytes := reviewed.file.bytes, sha256 := reviewed.file.sha256, source := some reviewed, move := true })
        identityLost
      tracked do
        let _ ← demand env (.openMember (paths.dir reviewed.path))
        closing env do
          let _ ← demand env (.parent step.path)
          closing env do
            let source ← openMoved env reviewed.path
            let target ← openMoved env step.path
            closing env do
              refuseIf (source = target) identityLost
              refuseIf (pending = false ∧ source = true) identityLost
              let id ← demand env (.identity (if target then step.path else reviewed.path))
              refuseIf (id.identity ≠ reviewed.identity ∨ id.identity.mode.toNat &&& 0o777 ≠ step.mode ∨
                id.matched = false) identityLost
              let _ ← demand env (.verifyFile (if target then step.path else reviewed.path))
              publishMove env paths reviewed.path step.path pending source
              demandAll env [.sameMember step.path, .sameMember (paths.dir reviewed.path)]
              demandAll env [.stat step.path]
              retain step.path
              check env
              pure id.identity

def openOrCreate (step : Step) (pending : Bool) : Run (Answer × Bool) := do
  let a ← ask env (.openMember step.path)
  if .notExist ∈ a.errors ∧ pending = true then do
    check env
    if step.kind = .directory then do
      onFailure (carry env (.makeDirectory step.path)) uncertain
      mark
      let b ← ask env (.openMember step.path)
      pure (b, decide (b.errors = []))
    else do
      let b ← act env (.createFile step.path)
      whenever (b.errors = []) mark
      pure (b, decide (b.errors = []))
  else pure (a, false)

def publishMember (step : Step) (pending : Bool) : Run Unit :=
  whenever (pending = true) do
    mark
    carry env (.sync step.path)
    after env step.path
    carry env (.sync (paths.dir step.path))
    onFailure (after env step.path) uncertain

def observeMember (step : Step) (pending : Bool) : Run Identity := tracked do
  let _ ← demand env (.parent step.path)
  closing env do
    let opened ← openOrCreate env step pending
    accept opened.1
    closing env do
      let _ ← demand env (.protection step.path)
      let id ← demand env (.identity step.path)
      refuseIf (id.identity.mode.toNat &&& 0o777 ≠ step.mode ∨ id.matched = false) identityLost
      whenever (opened.2 = true ∧ step.kind = .file) (onFailure (copyFile env hash step) uncertain)
      whenever (step.kind = .file) (demandAll env [.verifyFile step.path])
      whenever (step.kind = .directory ∧ pending = true) (demandAll env [.empty step.path])
      publishMember env paths step pending
      demandAll env [.sameMember step.path]
      demandAll env [.stat step.path]
      retain step.path
      check env
      pure id.identity

def observe (step : Step) (pending : Bool) : Run Identity :=
  if step.move then observeMovedRestoreFile env paths step pending
  else if step.kind = .attr then observeAttribute env hash step pending
  else if step.kind = .rootDirectory then observeRoot env paths step pending
  else observeMember env hash paths step pending

/-- A missing future step is not an integrity failure, and an existing pending one must be exact; a move without a
source ends the call, as the source's access to it does. -/
def preflightNextStep (step : Step) : Run Unit := do
  let s ← self
  match s.session.pending with
  | none => do
      requireAbsent env step
      fail [.incomplete]
  | some pending => do
      refuseIf (pending.step ≠ step) identityLost
      if step.kind = .rootDirectory ∧ s.member.rootAtTarget = false then do
        freshReservedRoot env
        fail [.incomplete]
      else do
        let absent ← attempt (if step.move then requireAbsent env step else fail refusal)
        match absent with
        | .ok _ =>
            match step.source with
            | none => fail refusal
            | some source => do
                let _ ← demand env (.openMember source.path)
                closing env do
                  let id ← demand env (.identity source.path)
                  refuseIf (id.identity ≠ source.identity) identityLost
                  demandAll env [.verifyFile source.path]
                fail [.incomplete]
        | .error _ => do
            let observed ← attempt (observe env hash paths step false)
            match observed with
            | .ok _ => fail [.incomplete]
            | .error e => do
                (if .errno .notExist ∈ e ∨ .errno .noData ∈ e then requireAbsent env step else fail e)
                fail [.incomplete]

def append (phase : Journal.Phase) (step : Step) (identity : Identity) : Run Unit := do
  check env
  let s ← self
  let record := nextRecord hash s.session phase step identity
  refuseIf (maximumPreparationControlRecordBytes < record.json.length + 1 ∨
    maximumPreparationControlBytes - (record.json.length + 1) < s.session.size) refusal
  onFailure (carry env (.write s.member.controlPath)) uncertain
  onFailure (carry env (.sync s.member.controlPath)) uncertain
  onFailure (after env step.path) uncertain
  onFailure (demandAll env [.stat s.member.controlPath]) uncertain
  update fun s => { s with session := s.session.appended record }
  onFailure (check env) uncertain

def advance : Run Unit := update fun s => { s with session := { s.session with position := s.session.position + 1 } }

def publishStep (step : Step) (pending : Option Record) : Run Unit := do
  (match pending with
    | some pending => refuseIf (pending.step ≠ step) identityLost
    | none => do
        requireAbsent env step
        append env hash .pending step .zero)
  let identity ← observe env hash paths step true
  onFailure (append env hash .complete step identity) uncertain
  advance

def step (step : Step) : Run Unit := do
  check env
  let s ← self
  match s.session.completed[s.session.position]? with
  | some completed => do
      refuseIf (completed.step ≠ step) identityLost
      let identity ← observe env hash paths step false
      refuseIf (identity ≠ completed.identity) identityLost
      advance
  | none =>
      if s.readOnly = true then preflightNextStep env hash paths step
      else publishStep env hash paths step s.session.pending

def stepAll : List Step → Run Unit
  | [] => pure ()
  | st :: rest => do
      step env hash paths st
      stepAll rest

def attributeSteps (request : Request) : List Journal.AttributeSpec → List PreparedAttribute → ℕ → Run ℕ
  | spec :: specs, a :: rest, used => do
      refuseIf (a.spec ≠ spec ∨ a.raw = [] ∨ 4096 < a.raw.length ∨
        request.limits.maxOwnerAttributeBytes - used < a.raw.length) refusal
      step env hash paths
        (attributeStep (preparationDigest hash a.raw) (attributePath paths request a.spec) a.spec.name a.raw)
      attributeSteps request specs rest (used + a.raw.length)
  | [], _, used => pure used
  | _, [], used => pure used

def ownerSteps (request : Request) : List OwnerPlan → ℕ → Run Unit
  | [], _ => pure ()
  | owner :: rest, used => do
      demandAll env [.census false]
      let a ← demand env (.inspect rest.length)
      refuseIf (a.prepared.length ≠ owner.attributes.length) refusal
      let used ← attributeSteps env hash paths request owner.attributes a.prepared used
      ownerSteps request rest used

def metadataSteps (request : Request) (plan : Plan) : List Step :=
  [metadataStep (preparationDigest hash plan.marker) request.markerPath plan.marker,
    metadataStep (preparationDigest hash plan.lease) request.leasePath plan.lease]

def declarationStep (request : Request) (plan : Plan) : Step :=
  let digest := preparationDigest hash
  let raw := request.declaration plan.root.inode (digest plan.generation) (digest plan.marker) (digest plan.lease)
  metadataStep (digest raw) request.declarationPath raw

def memberSteps (request : Request) (plan : Plan) : List Step :=
  (if request.rootCreation = createPrivate then [preparationRootStep request plan] else []) ++
    attributeStep (preparationDigest hash plan.generation) request.rootPath rootGenerationAttribute plan.generation ::
    plan.sources.map (sourceStep paths request plan)

def runBody (request : Request) (plan : Plan) : Run Unit := do
  stepAll env hash paths (memberSteps hash paths request plan)
  ownerSteps env hash paths request plan.owners 0
  stepAll env hash paths (metadataSteps hash request plan)
  demandAll env [.census false]
  demandAll env [.declaration]
  step env hash paths (declarationStep hash request plan)
  let s ← self
  refuseIf (s.session.pending.isSome ∨ s.session.position ≠ s.session.completed.length) identityLost
  demandAll env [.census false]

def run : Run Unit := do
  let s ← self
  joining (runBody env hash paths s.member.request s.member.plan) (demandAll env [.checkRestore])

def freshControl (m : Member) : Run Unit := do
  demandAll env [.empty m.request.rootPath, .noAttributes m.request.rootPath]
  let _ ← demand env (.absent m.request.markerPath)
  let _ ← demand env (.absent m.request.leasePath)
  let _ ← demand env (.absent m.request.declarationPath)
  check env

def readBack (path : Text) (opened : Answer) : Run Answer := do
  accept opened
  update fun s => { s with control := true }
  let _ ← demand env (.protection path)
  let _ ← demand env (.lock path)
  let _ ← demand env (.identity path)
  let c ← demand env (.readControl path)
  update fun s => { s with session := { c.session with position := s.session.position } }
  refuseIf (c.matched = false) identityLost
  let _ ← demand env (.stat path)
  pure c

def observeReservation (root : Text) (sequence : ℕ) : Run Unit := do
  let r ← ask env (.readAttribute root preparationAttribute)
  if .noData ∈ r.errors then do
    refuseIf (sequence ≠ 0) identityLost
    demandAll env [.empty root, .noAttributes root]
  else do
    accept r
    refuseIf (r.matched = false) identityLost
    update fun s => { s with anchored := true }

def preflightControl : Run Unit := do
  let s ← self
  let a ← ask env (.openControl s.member.controlPath)
  if .notExist ∈ a.errors then freshControl env s.member
  else do
    let c ← readBack env s.member.controlPath a
    observeReservation env s.member.request.rootPath c.session.sequence
    check env

def preflightOutcome (r : Except (List Leaf) Unit) : Run Unit := do
  update fun s => { s with complete := r.isOk }
  (match r with
    | .ok _ => pure ()
    | .error e => refuseIf (.incomplete ∉ e) e)
  demandAll env [.census true]
  let s ← self
  let request := s.member.request
  whenever (request.markerPath ∉ s.retained) (demandAll env [.absent request.markerPath])
  whenever (request.leasePath ∉ s.retained) (demandAll env [.absent request.leasePath])
  whenever (request.declarationPath ∉ s.retained) (demandAll env [.absent request.declarationPath])
  joining (check env) (demandAll env [.checkRestore])

def preflight : Run Unit := do
  preflightControl env
  update fun s => { s with readOnly := true }
  joining (do
    let r ← attempt (run env hash paths)
    preflightOutcome env r)
    (update fun s => { s with readOnly := false, session := { s.session with position := 0 } })

def reserveControl : Run Unit := tracked do
  let s ← self
  let root := s.member.request.rootPath
  let r ← ask env (.readAttribute root preparationAttribute)
  (if .noData ∈ r.errors then do
    refuseIf (s.session.sequence ≠ 0) identityLost
    demandAll env [.empty root, .noAttributes root]
    check env
    mark
    onFailure (createAttribute env root preparationAttribute r.bytes) uncertain
    onFailure (after env root) uncertain
  else do
    accept r
    refuseIf (r.matched = false) identityLost)
  update fun s => { s with anchored := true }
  check env

def createControl (m : Member) : Run Unit := do
  freshControl env m
  carry env (.createFile m.controlPath)
  mark
  update fun s => { s with control := true }
  let _ ← demand env (.protection m.controlPath)
  let _ ← demand env (.lock m.controlPath)
  let header ← demand env (.identity m.controlPath)
  onFailure (carry env (.write m.controlPath)) uncertain
  onFailure (carry env (.sync m.controlPath)) uncertain
  onFailure (carry env (.sync (paths.dir m.controlPath))) uncertain
  onFailure (after env m.controlPath) uncertain
  refuseIf (header.matched = false) identityLost
  let _ ← demand env (.stat m.controlPath)
  pure ()

def openControl : Run Unit := do
  let s ← self
  if s.control = true then reserveControl env
  else tracked do
    let a ← ask env (.openControl s.member.controlPath)
    (if .notExist ∈ a.errors then createControl env paths s.member
    else do
      let _ ← readBack env s.member.controlPath a
      pure ())
    reserveControl env

structure CohortPlan where
  plans : List Text
  maxPlanBytes : ℕ
  maxControlBytes : ℕ
  maxEntries : ℕ
  maxBytes : ℕ
  maxOwnerAttributes : ℕ
  maxOwnerAttributeBytes : ℕ

structure Usage where
  planBytes : ℕ
  controlBytes : ℕ
  entries : ℕ
  memberBytes : ℕ
  attributes : ℕ

def countSources (cohort : CohortPlan) : List Source → ℕ × ℕ → Option (ℕ × ℕ)
  | [], used => some used
  | source :: rest, (entries, bytes) =>
      if entries = cohort.maxEntries ∨ cohort.maxBytes - bytes < source.file.bytes then none
      else countSources cohort rest (entries + 1, bytes + source.file.bytes)

def countAttributes (cohort : CohortPlan) : List OwnerPlan → ℕ → Option ℕ
  | [], used => some used
  | owner :: rest, used =>
      if cohort.maxOwnerAttributes - used < owner.attributes.length then none
      else countAttributes cohort rest (used + owner.attributes.length)

def orRefuse {α : Type} : Option α → Run α
  | none => fail refusal
  | some a => pure a

def openedApply (m : Member) : Apply :=
  ⟨m, ⟨[], 0, [], none, 0, 0⟩, false, false, [], [], [], false, false, false⟩

def admitMember (cohort : CohortPlan) (index : ℕ) (path : Text) (earlier : Option Text) (used : Usage) :
    Run (Apply × Usage) := do
  let size ← demand env (.fileSize path)
  refuseIf (cohort.maxPlanBytes - used.planBytes < size.size) refusal
  let opened ← demand env (.openApplication index)
  let m := opened.member
  refuseIf (∃ root ∈ earlier, m.request.rootPath ≤ root) refusal
  let control ← ask env (.fileSize m.controlPath)
  whenever (.notExist ∉ control.errors) (accept control)
  let maximum ← orRefuse (preparationControlCapacity paths m.request m.plan true)
  let retained := max (if .notExist ∈ control.errors then 0 else control.size) maximum
  refuseIf (cohort.maxControlBytes - used.controlBytes < retained) refusal
  let counted ← orRefuse (countSources cohort m.plan.sources (used.entries, used.memberBytes))
  let attributes ← orRefuse (countAttributes cohort m.plan.owners used.attributes)
  refuseIf (cohort.maxOwnerAttributeBytes / 4096 < attributes) refusal
  pure (openedApply m, ⟨used.planBytes + size.size, used.controlBytes + retained, counted.1, counted.2, attributes⟩)

def admitMembers (cohort : CohortPlan) : List Text → Option Text → Usage → Run (List Apply)
  | [], _, _ => pure []
  | path :: rest, earlier, used => do
      let admitted ← admitMember env paths cohort rest.length path earlier used
      let apps ← admitMembers cohort rest (some admitted.1.member.request.rootPath) admitted.2
      pure (admitted.1 :: apps)

def within (app : Apply) (p : Run Unit) : Run Apply := do
  update fun _ => app
  p
  self

def eachMember (p : Run Unit) : List Apply → Run (List Apply)
  | [] => pure []
  | app :: rest => do
      let app ← within app p
      let apps ← eachMember p rest
      pure (app :: apps)

def admitCohort (cohort : CohortPlan) : Run (List Apply) := do
  demandAll env [.readCohort]
  let apps ← admitMembers env paths cohort cohort.plans none ⟨0, 0, 0, 0, 0⟩
  demandAll env [.namespaces]
  demandAll env [.retained]
  demandAll env [.reserves]
  let apps ← eachMember (preflight env hash paths) apps
  let apps ← eachMember (check env) apps
  demandAll env [.checkRetained]
  pure apps

def publishApplication : Run Unit := do
  demandAll env [.checkRestore]
  let s ← self
  (if s.complete = true then demandAll env [.census false]
  else do
    openControl env paths
    run env hash paths)
  onFailure (after env s.member.request.rootPath) uncertain
  demandAll env [.checkRetained]

structure CohortResult where
  members : List Apply
  applied : Bool
  complete : Bool

def prepareCohort (cohort : CohortPlan) (apply : Bool) : Run CohortResult :=
  joining (do
    let apps ← admitCohort env hash paths cohort
    let published ← (if apply then eachMember (publishApplication env hash paths) apps else pure apps)
    let apps' ← eachMember (demandAll env [.checkRestore]) published
    demandAll env [.context]
    pure ⟨apps', apply, apply || apps.all Apply.complete⟩)
    (demandAll env [.close])

end Observers

end UrConnect.DurableVolume.Cohort
