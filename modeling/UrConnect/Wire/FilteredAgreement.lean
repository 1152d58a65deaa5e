import UrConnect.Wire.FilteredPath

/-! The routing parser agrees with a standard decoder on the buffers whose varints fit 64 bits and whose
field numbers are valid, and on no others. -/

namespace UrConnect.Wire

open Lib.WireFormat

def setProtoId (path : ProtoTransferPath) (fieldNumber : ℕ) (v : List UInt8) : ProtoTransferPath :=
  match fieldNumber with
  | 1 => { path with destinationId := some v }
  | 2 => { path with sourceId := some v }
  | 3 => { path with streamId := some v }
  | _ => path

/-- A standard decoder takes a field of another wire type for an unknown field. -/
def standardPathField (number wireType : ℕ) (b : List UInt8) (path : ProtoTransferPath) :
    Option (ProtoTransferPath × ℕ) :=
  if IsPathId number ∧ wireType = bytesType then
    reader.bytesField wireType b fun v => some (setProtoId path number v)
  else reader.skipField number wireType b path

def standardPath (b : List UInt8) (path : ProtoTransferPath) : Option ProtoTransferPath :=
  reader.readMessage standardPathField b path

def standardFrameField (number wireType : ℕ) (b : List UInt8) (path : Option ProtoTransferPath) :
    Option (Option ProtoTransferPath × ℕ) :=
  if number = 1 ∧ wireType = bytesType then
    reader.bytesField wireType b fun v => (standardPath v (path.getD {})).map some
  else reader.skipField number wireType b path

def standardFilteredTransferFrame (b : List UInt8) : Option (Option ProtoTransferPath) :=
  reader.readMessage standardFrameField b none

def fullTransferPath (b : List UInt8) : Except Fault TransferPath :=
  match standardFilteredTransferFrame b with
  | some path => transferPathFromProtobuf path
  | none => .error .protobuf

def filteredTransferPath (b : List UInt8) : Except Fault TransferPath :=
  match parseFilteredTransferPath b with
  | some (path, pathExists) => if pathExists then .ok path else .error (.message "Missing transfer path")
  | none => fullTransferPath b

/-! The standard decoder on the fields of a message. -/

def standardPathUpdate (path : ProtoTransferPath) (f : RawField) : Option ProtoTransferPath :=
  some (if IsPathId f.number ∧ f.wireType = bytesType then setProtoId path f.number f.payload else path)

def standardFrameUpdate (path : Option ProtoTransferPath) (f : RawField) : Option (Option ProtoTransferPath) :=
  if f.number = 1 ∧ f.wireType = bytesType then (standardPath f.payload (path.getD {})).map some else some path

lemma bytesField_headField {σ : Type} {b : List UInt8} {f : RawField} (h : headField b = some f)
    (hw : f.wireType = bytesType) (set : List UInt8 → Option σ) :
    reader.bytesField f.wireType (b.drop f.tagLength) set =
      if f.VarintInRange then (set f.payload).map fun s => (s, f.length) else none := by
  rw [Reader.bytesField, if_neg (not_not.mpr hw), consumeBytes_headField h hw]
  split <;> rfl

lemma skipField_headField {σ : Type} {b : List UInt8} {f : RawField} (h : headField b = some f) (s : σ) :
    reader.skipField f.number f.wireType (b.drop f.tagLength) s =
      if f.VarintInRange then some (s, f.length) else none := by
  rw [Reader.skipField, consumeFieldValue_headField h]
  split <;> rfl

lemma follows_path : Follows standardPathField standardPathUpdate := by
  intro b f path h
  rw [standardPathField, standardPathUpdate]
  by_cases hid : IsPathId f.number ∧ f.wireType = bytesType
  · rw [if_pos hid, if_pos hid, bytesField_headField h hid.2]
  · rw [if_neg hid, if_neg hid, skipField_headField h]
    rfl

lemma follows_frame : Follows standardFrameField standardFrameUpdate := by
  intro b f path h
  rw [standardFrameField, standardFrameUpdate]
  by_cases hpath : f.number = 1 ∧ f.wireType = bytesType
  · rw [if_pos hpath, if_pos hpath, bytesField_headField h hpath.2]
  · rw [if_neg hpath, if_neg hpath, skipField_headField h]
    rfl

structure Represents (proto : ProtoTransferPath) (path : TransferPath) : Prop where
  sourceId : optionalIdFromBytes proto.sourceId = .ok path.sourceId
  destinationId : optionalIdFromBytes proto.destinationId = .ok path.destinationId
  streamId : optionalIdFromBytes proto.streamId = .ok path.streamId

variable {proto : ProtoTransferPath} {path path' : TransferPath} {f : RawField} {fs gs : List RawField}

lemma Represents.fromProtobuf (h : Represents proto path) : transferPathFromProtobuf (some proto) = .ok path := by
  simp only [transferPathFromProtobuf, transferPathFromBytes, h.sourceId, h.destinationId, h.streamId]
  rfl

lemma idFromBytes_idAt {payload : List UInt8} (h : payload.length = 16) :
    optionalIdFromBytes (some payload) = .ok (idAt payload 0) := by
  have htake : (payload.drop 0).take 16 = payload := List.take_of_length_le (Nat.le_of_eq h)
  simp only [optionalIdFromBytes, idFromBytes, idAt, htake, dif_pos h]

lemma Represents.update (h : Represents proto path) (hupdate : pathUpdate path f = some path') :
    ∃ proto', standardPathUpdate proto f = some proto' ∧ Represents proto' path' := by
  rw [pathUpdate] at hupdate
  refine ⟨_, rfl, ?_⟩
  split at hupdate
  · rename_i hid
    split at hupdate <;> cases hupdate
    rename_i hbytes
    have hparsed := idFromBytes_idAt hbytes.2
    rw [if_pos ⟨hid, hbytes.1⟩]
    rcases hid with hn | hn | hn <;> rw [hn]
    · exact ⟨h.sourceId, hparsed, h.streamId⟩
    · exact ⟨hparsed, h.destinationId, h.streamId⟩
    · exact ⟨h.sourceId, h.destinationId, hparsed⟩
  · rename_i hid
    cases hupdate
    rw [if_neg fun hbytes => hid hbytes.1]
    exact h

lemma Represents.fold (h : Represents proto path) (hfold : gs.foldlM pathUpdate path = some path') :
    ∃ proto', gs.foldlM standardPathUpdate proto = some proto' ∧ Represents proto' path' := by
  induction gs generalizing proto path with
  | nil =>
    cases hfold
    exact ⟨proto, rfl, h⟩
  | cons g gs ih =>
    rw [List.foldlM_cons] at hfold
    obtain ⟨next, hnext, hrest⟩ := Option.bind_eq_some_iff.mp hfold
    obtain ⟨proto', hupdate, hrep⟩ := h.update hnext
    obtain ⟨proto'', hfold', hrep'⟩ := ih hrep hrest
    refine ⟨proto'', ?_, hrep'⟩
    rw [List.foldlM_cons, hupdate]
    exact hfold'

def PathInRange (f : RawField) : Prop :=
  f.number = 1 ∧ f.wireType = bytesType → ∀ gs, Splits f.payload gs → ∀ g ∈ gs, g.InRange

def InRange (b : List UInt8) : Prop := ∀ fs, Splits b fs → ∀ f ∈ fs, f.InRange ∧ PathInRange f

structure Matches (proto : Option ProtoTransferPath) (path : TransferPath) (pathExists : Bool) : Prop where
  present : pathExists = proto.isSome
  represents : Represents (proto.getD {}) path

variable {found found' : Option ProtoTransferPath} {pathExists pathExists' : Bool}

lemma standardPath_splits (hsplits : Splits f.payload gs) (proto : ProtoTransferPath) :
    standardPath f.payload proto =
      if ∀ g ∈ gs, g.InRange then gs.foldlM standardPathUpdate proto else none :=
  readMessage_splits follows_path hsplits proto

lemma Matches.parses (h : Matches found path pathExists) (hp : Parses fs path pathExists path' pathExists')
    (hr : ∀ f ∈ fs, PathInRange f) :
    ∃ found', fs.foldlM standardFrameUpdate found = some found' ∧ Matches found' path' pathExists' := by
  induction hp generalizing found with
  | nil path pathExists => exact ⟨found, rfl, h⟩
  | @other f fs path path' pathExists pathExists' number others ih =>
    obtain ⟨found', hfold, hmatches⟩ := ih h fun g hg => hr g (List.mem_cons_of_mem f hg)
    refine ⟨found', ?_, hmatches⟩
    rw [List.foldlM_cons, standardFrameUpdate, if_neg fun hf => number hf.1]
    exact hfold
  | @path f fs gs path path' path'' pathExists pathExists' number wireType splits update others ih =>
    obtain ⟨proto, hproto, hrep⟩ := h.represents.fold update
    have hgs := hr f List.mem_cons_self ⟨number, wireType⟩ gs splits
    have hnext : Matches (some proto) path' true := ⟨rfl, hrep⟩
    obtain ⟨found', hfold, hmatches⟩ := ih hnext fun g hg => hr g (List.mem_cons_of_mem f hg)
    refine ⟨found', ?_, hmatches⟩
    rw [List.foldlM_cons, standardFrameUpdate, if_pos ⟨number, wireType⟩, standardPath_splits splits,
      if_pos hgs, hproto]
    exact hfold

lemma pathInRange_of_fold (hp : Parses fs path pathExists path' pathExists')
    (hfold : fs.foldlM standardFrameUpdate found = some found') : ∀ f ∈ fs, PathInRange f := by
  induction hp generalizing found with
  | nil => exact fun f hf => absurd hf List.not_mem_nil
  | other number others ih =>
    rw [List.foldlM_cons, standardFrameUpdate, if_neg fun hf => number hf.1] at hfold
    rw [List.forall_mem_cons]
    exact ⟨fun hf => absurd hf.1 number, ih hfold⟩
  | path number wireType splits update others ih =>
    rw [List.foldlM_cons] at hfold
    obtain ⟨next, hnext, hrest⟩ := Option.bind_eq_some_iff.mp hfold
    rw [List.forall_mem_cons]
    refine ⟨fun _ gs hgs => ?_, ih hrest⟩
    obtain rfl := hgs.unique splits
    rw [standardFrameUpdate, if_pos ⟨number, wireType⟩, standardPath_splits splits] at hnext
    by_contra hout
    rw [if_neg hout] at hnext
    cases hnext

lemma emptyPath_matches : Matches none ⟨Id.zero, Id.zero, Id.zero⟩ false := ⟨rfl, rfl, rfl, rfl⟩

structure Agreement (b : List UInt8) (path : TransferPath) (pathExists : Bool) : Prop where
  decodes : ∃ found, standardFilteredTransferFrame b = some found ∧ (pathExists = true ↔ found.isSome) ∧
    transferPathFromProtobuf (some (found.getD {})) = .ok path
  routes : filteredTransferPath b = fullTransferPath b

lemma standard_splits {b : List UInt8} (hsplits : Splits b fs) :
    standardFilteredTransferFrame b =
      if ∀ f ∈ fs, f.InRange then fs.foldlM standardFrameUpdate none else none :=
  readMessage_splits follows_frame hsplits none

/-- On a buffer that the parser accepts. -/
theorem filtered_agreement (b : List UInt8) (path : TransferPath) (pathExists : Bool)
    (hparsed : parseFilteredTransferPath b = some (path, pathExists)) :
    Agreement b path pathExists ↔ InRange b := by
  obtain ⟨fs, hsplits, hparses⟩ := parseFilteredTransferPath_some hparsed
  constructor
  · rintro ⟨⟨found, hfound, -, -⟩, -⟩ gs hgs
    obtain rfl := hgs.unique hsplits
    rw [standard_splits hsplits] at hfound
    split at hfound
    · rename_i hin
      have hpaths := pathInRange_of_fold hparses hfound
      exact fun f hf => ⟨hin f hf, hpaths f hf⟩
    · cases hfound
  · intro hin
    have hfields := hin fs hsplits
    obtain ⟨found, hfold, hpresent, hrep⟩ := emptyPath_matches.parses hparses fun f hf => (hfields f hf).2
    have hfound : standardFilteredTransferFrame b = some found := by
      rw [standard_splits hsplits, if_pos fun f hf => (hfields f hf).1]
      exact hfold
    refine ⟨⟨found, hfound, by rw [hpresent], hrep.fromProtobuf⟩, ?_⟩
    simp only [filteredTransferPath, fullTransferPath, hparsed, hfound]
    cases found with
    | none =>
      rw [hpresent]
      rfl
    | some proto =>
      rw [hpresent]
      exact hrep.fromProtobuf.symm

instance (f : RawField) : Decidable (PathInRange f) :=
  decidable_of_iff (f.number = 1 ∧ f.wireType = bytesType →
      ∀ gs ∈ splitFields f.payload.length f.payload, ∀ g ∈ gs, g.InRange)
    ⟨fun h hf gs hgs => h hf gs (splits_iff.mp hgs), fun h hf gs hgs => h hf gs (splits_iff.mpr hgs)⟩

instance (b : List UInt8) : Decidable (InRange b) :=
  decidable_of_iff (∀ fs ∈ splitFields b.length b, ∀ f ∈ fs, f.InRange ∧ PathInRange f)
    ⟨fun h fs hfs => h fs (splits_iff.mp hfs), fun h fs hfs => h fs (splits_iff.mpr hfs)⟩

def routed (value : List UInt8) : List UInt8 :=
  [0x0a, 0x12, 0x0a, 0x10] ++ List.replicate 16 7 ++ [0x10] ++ value

def routedPath : TransferPath := ⟨⟨List.replicate 16 7, List.length_replicate⟩, Id.zero, Id.zero⟩

theorem filtered_agreement_routed :
    InRange (routed [1]) ∧ parseFilteredTransferPath (routed [1]) = some (routedPath, true) ∧
      Agreement (routed [1]) routedPath true := by
  have hparsed : parseFilteredTransferPath (routed [1]) = some (routedPath, true) := by decide +kernel
  have hin : InRange (routed [1]) := by decide +kernel
  exact ⟨hin, hparsed, (filtered_agreement _ _ _ hparsed).mpr hin⟩

def overflowing : List UInt8 := List.replicate 9 0xff ++ [0x7f]

theorem overflowing_routed :
    parseFilteredTransferPath (routed overflowing) = some (routedPath, true) ∧
      filteredTransferPath (routed overflowing) = .ok routedPath ∧
      standardFilteredTransferFrame (routed overflowing) = none ∧
      fullTransferPath (routed overflowing) = .error .protobuf ∧
      ¬ Agreement (routed overflowing) routedPath true := by
  have hparsed : parseFilteredTransferPath (routed overflowing) = some (routedPath, true) := by decide +kernel
  have hstandard : standardFilteredTransferFrame (routed overflowing) = none := by decide +kernel
  refine ⟨hparsed, ?_, hstandard, ?_, ?_⟩
  · rw [filteredTransferPath, hparsed]
    rfl
  · rw [fullTransferPath, hstandard]
  · rintro ⟨⟨found, hfound, -⟩, -⟩
    rw [hstandard] at hfound
    cases hfound

end UrConnect.Wire
