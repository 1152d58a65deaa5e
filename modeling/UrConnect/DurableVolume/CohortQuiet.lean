import UrConnect.DurableVolume.Cohort

/-! Read-only preflight performs no effect, and tells a completed member from an incomplete one. -/

namespace UrConnect.DurableVolume.Cohort

open UrConnect.Lib.JsonLines UrConnect.Lib.Programs UrConnect.Lib.Programs.Prog
open UrConnect.DurableVolume.Journal (Identity Kind Step Record Request Plan OwnerPlan PreparedAttribute Paths Session
  Source createPrivate rootGenerationAttribute preparationAttribute preparationDigest preparationRootStep sourceStep
  preparationSourceMoves attributePath attributeStep metadataStep maximumPreparationControlBytes
  maximumPreparationControlRecordBytes nextRecord preparationControlCapacity)

def Op.IsQuery : Op → Prop
  | .query _ => True
  | .effect _ => False

structure Touched (s s' : Apply) : Prop where
  member : s'.member = s.member
  session : s'.session = s.session
  readOnly : s'.readOnly = s.readOnly
  complete : s'.complete = s.complete
  failed : .incomplete ∉ s'.failed

structure Frame (I : World Op Apply → Prop) : Prop where
  query : ∀ w q, I w → I { w with trace := w.trace ++ [.query q] }
  touch : ∀ w s', I w → Touched w.self s' → I { w with self := s' }
  failed : ∀ w, I w → .incomplete ∉ w.self.failed

def Calm {α : Type} (p : Run α) : Prop :=
  ∀ I, Frame I → Spec I p (fun _ => I) fun e w => I w ∧ .incomplete ∉ e

section Rules

variable {α β : Type} {p : Run α}

lemma calm_pure (a : α) : Calm (pure a : Run α) := fun _ _ => Spec.pure fun _ hw => hw

lemma calm_fail {e : List Leaf} (h : .incomplete ∉ e) : Calm (fail e : Run α) :=
  fun _ _ => Spec.fail fun _ hw => ⟨hw, h⟩

lemma Calm.bind {f : α → Run β} (hp : Calm p) (hf : ∀ a, Calm (f a)) : Calm (p >>= f) :=
  fun I hI => (hp I hI).bind fun a => hf a I hI

lemma Calm.attempt (hp : Calm p) : Calm (attempt p) := by
  intro I hI
  refine Spec.attempt ((hp I hI).mono (fun _ h => h) (fun _ _ h => h) fun _ _ h => h.1)

lemma calm_self_bind {f : Apply → Run α} (h : ∀ s, Calm (f s)) : Calm (self >>= f) := by
  intro I hI
  exact Spec.self_bind fun s => (h s I hI).mono (fun _ hw => hw.1) (fun _ _ hw => hw) fun _ _ hw => hw

lemma calm_update {f : Apply → Apply} (h : ∀ s, .incomplete ∉ s.failed → Touched s (f s)) : Calm (update f) :=
  fun _ hI => Spec.update fun w hw => hI.touch w _ hw (h _ (hI.failed w hw))

lemma Calm.joining {q : Run Unit} (hp : Calm p) (hq : Calm q) : Calm (joining p q) := by
  intro I hI
  refine Spec.joining (M := fun r w => I w ∧ ∀ e, r = .error e → .incomplete ∉ e) ?_ ?_ ?_
  · refine (hp I hI).mono (fun _ h => h) (fun _ _ h => ⟨h, by rintro _ ⟨⟩⟩) fun e w h => ⟨h.1, ?_⟩
    rintro _ ⟨⟩
    exact h.2
  · intro a
    exact (hq I hI).mono (fun _ h => h.1) (fun _ _ h => h) fun _ _ h => h
  · intro e w hw
    have he := hw.2 e rfl
    refine (hq I hI).mono (fun _ h => h) (fun _ _ h => ⟨h, he⟩) (fun f _ h => ⟨h.1, ?_⟩) w hw.1
    simp [he, h.2]

lemma Calm.onFailure {f : List Leaf → Run α} (hp : Calm p) (hf : ∀ e, .incomplete ∉ e → Calm (f e)) :
    Calm (onFailure p f) := by
  intro I hI
  refine Spec.onFailure (hp I hI) fun e w hw => ?_
  exact hf e hw.2 I hI w hw.1

lemma calm_ite {c : Prop} [Decidable c] {q : Run α} (hp : c → Calm p) (hq : ¬ c → Calm q) :
    Calm (if c then p else q) := by
  split
  · exact hp ‹_›
  · exact hq ‹_›

lemma calm_whenever {c : Prop} [Decidable c] {q : Run Unit} (h : c → Calm q) : Calm (whenever c q) :=
  calm_ite h fun _ => calm_pure ()

lemma calm_refuseIf_bind {c : Prop} [Decidable c] {e : List Leaf} (he : .incomplete ∉ e) {f : Unit → Run α}
    (h : ¬ c → Calm (f ())) : Calm (refuseIf c e >>= f) := by
  unfold refuseIf
  by_cases hc : c
  · rw [if_pos hc]
    exact fun I hI w hw => ⟨hw, he⟩
  · rw [if_neg hc]
    exact fun I hI => h hc I hI

lemma calm_refuse {c : Prop} [Decidable c] {e : List Leaf} (he : .incomplete ∉ e) : Calm (refuseIf c e) :=
  calm_ite (fun _ => calm_fail he) fun _ => calm_pure ()

lemma calm_uncertain {e : List Leaf} (h : .incomplete ∉ e) : Calm (uncertain e : Run α) := by
  unfold uncertain
  refine calm_ite (fun _ => ?_) fun _ => ?_
  · refine Calm.bind (calm_update ?_) fun _ => calm_fail h
    exact fun s _ => ⟨rfl, rfl, rfl, rfl, h⟩
  · have hu : Leaf.incomplete ∉ Leaf.uncertain :: e := by simp [h]
    refine Calm.bind (calm_update ?_) fun _ => calm_fail hu
    exact fun s _ => ⟨rfl, rfl, rfl, rfl, hu⟩

lemma Calm.tracked (hp : Calm p) : Calm (tracked p) := by
  refine Calm.bind (calm_update ?_) fun _ => hp.onFailure fun e he => ?_
  · exact fun s hs => ⟨rfl, rfl, rfl, rfl, hs⟩
  · exact calm_self_bind fun s => calm_ite (fun _ => calm_uncertain he) fun _ => calm_fail he

lemma calm_retain (path : Text) : Calm (retain path) := calm_update fun _ hs => ⟨rfl, rfl, rfl, rfl, hs⟩

lemma identityLost_plain : Leaf.incomplete ∉ identityLost := by decide

lemma refusal_plain : Leaf.incomplete ∉ refusal := by decide

lemma errno_plain (es : List Errno) : Leaf.incomplete ∉ es.map Leaf.errno := by simp

end Rules

section Calls

variable {α : Type} (env : List Op → Op → Answer)

lemma calm_ask (q : Query) : Calm (ask env q) := fun _ hI => Spec.perform fun w hw _ => hI.query w q hw

lemma calm_accept (a : Answer) : Calm (accept a) :=
  calm_ite (fun _ => calm_pure ()) fun _ => calm_fail (errno_plain _)

lemma calm_demand (q : Query) : Calm (demand env q) :=
  (calm_ask env q).bind fun a => (calm_accept a).bind fun _ => calm_pure a

lemma calm_demandAll (qs : List Query) : Calm (demandAll env qs) := by
  induction qs with
  | nil => exact calm_pure ()
  | cons q qs ih => exact ((calm_demand env q).bind fun _ => calm_pure ()).joining ih

lemma Calm.closing {p : Run α} (hp : Calm p) : Calm (closing env p) := hp.joining (calm_demandAll env _)

lemma calm_check : Calm (check env) := by
  intro I hI
  refine Spec.self_bind fun s => ?_
  by_cases hs : s.failed ≠ []
  · rw [if_pos hs]
    refine Spec.fail fun w hw => ⟨hw.1, ?_⟩
    have hfailed := hI.failed w hw.1
    rwa [hw.2] at hfailed
  · rw [if_neg hs]
    exact (calm_demandAll env _ I hI).mono (fun _ hw => hw.1) (fun _ _ hw => hw) fun _ _ hw => hw

end Calls

section Observers

variable (env : List Op → Op → Answer) (hash : Bytes → Fin 64 → Fin 16) (paths : Paths)

lemma calm_requireAbsent (step : Step) : Calm (requireAbsent env step) := by
  refine calm_ite (fun _ => ?_) fun _ => ?_
  · refine (calm_demand env _).bind fun _ => (calm_ask env _).bind fun a => (calm_ask env _).bind fun _ => ?_
    refine calm_ite (fun _ => calm_pure ()) fun _ => calm_ite (fun _ => calm_fail (errno_plain _)) fun _ => ?_
    exact calm_fail identityLost_plain
  · exact (calm_demand env _).bind fun _ => (calm_ask env _).bind fun a => (calm_ask env _).bind fun _ => calm_accept a

lemma calm_freshReservedRoot : Calm (freshReservedRoot env) := by
  refine calm_self_bind fun s => (calm_demand env _).bind fun _ => (calm_demand env _).bind fun a => ?_
  exact calm_refuseIf_bind identityLost_plain fun _ => calm_check env

lemma calm_observeAttribute (step : Step) : Calm (observeAttribute env hash step false) := by
  refine Calm.tracked ((calm_demand env _).bind fun _ => Calm.closing env ((calm_demand env _).bind fun id => ?_))
  have hvalue : Calm (attributeValue env step false) := by
    refine (calm_ask env _).bind fun a => ?_
    rw [if_neg (by simp)]
    exact calm_pure a
  refine hvalue.bind fun a => (calm_accept a).bind fun _ => calm_refuseIf_bind identityLost_plain fun _ => ?_
  refine (calm_whenever fun h => absurd h (by decide)).bind fun _ => ?_
  refine Calm.bind (calm_update ?_) fun _ => calm_self_bind fun s => ?_
  · exact fun s hs => ⟨rfl, rfl, rfl, rfl, hs⟩
  · refine (calm_whenever fun _ => calm_demandAll env _).bind fun _ => ?_
    exact (calm_check env).bind fun _ => calm_pure _

lemma calm_observeRoot (step : Step) : Calm (observeRoot env paths step false) := by
  refine calm_self_bind fun s => calm_refuseIf_bind identityLost_plain fun _ => Calm.tracked ?_
  refine calm_refuseIf_bind identityLost_plain fun _ => ?_
  refine (calm_whenever fun h => absurd h (by decide)).bind fun _ => (calm_check env).bind fun _ => ?_
  exact (calm_demand env _).bind fun id => calm_refuseIf_bind identityLost_plain fun _ => calm_pure _

lemma calm_openMoved (path : Text) : Calm (openMoved env path) := by
  refine (calm_ask env _).bind fun a => calm_ite (fun _ => calm_pure _) fun _ => ?_
  exact (calm_accept a).bind fun _ => (calm_demand env _).bind fun _ => calm_pure _

lemma calm_publishMove (source target : Text) : Calm (publishMove env paths source target false false) := by
  refine (calm_whenever fun h => absurd h (by decide)).bind fun _ => (calm_demandAll env _).bind fun _ => ?_
  exact calm_whenever fun h => absurd h (by decide)

lemma calm_observeMovedRestoreFile (step : Step) : Calm (observeMovedRestoreFile env paths step false) := by
  refine calm_self_bind fun s => ?_
  cases step.source.bind fun source => reviewedSource paths s.member.plan source.path with
  | none => exact calm_fail identityLost_plain
  | some reviewed =>
      refine calm_refuseIf_bind identityLost_plain fun _ => Calm.tracked ((calm_demand env _).bind fun _ => ?_)
      refine Calm.closing env ((calm_demand env _).bind fun _ => Calm.closing env ?_)
      refine (calm_openMoved env _).bind fun source => (calm_openMoved env _).bind fun target => Calm.closing env ?_
      refine calm_refuseIf_bind identityLost_plain fun _ => calm_refuseIf_bind identityLost_plain fun hsource => ?_
      obtain rfl : source = false := by simpa using hsource
      refine (calm_demand env _).bind fun id => calm_refuseIf_bind identityLost_plain fun _ => ?_
      refine (calm_demand env _).bind fun _ => (calm_publishMove env paths _ _).bind fun _ => ?_
      refine (calm_demandAll env _).bind fun _ => (calm_demandAll env _).bind fun _ => (calm_retain _).bind fun _ => ?_
      exact (calm_check env).bind fun _ => calm_pure _

lemma calm_observeMember (step : Step) : Calm (observeMember env hash paths step false) := by
  have hopen : openOrCreate env step false = ask env (.openMember step.path) >>= fun a => pure (a, false) := by
    unfold openOrCreate
    simp
  refine Calm.tracked ((calm_demand env _).bind fun _ => Calm.closing env ?_)
  rw [hopen, Prog.bind_assoc]
  refine (calm_ask env _).bind fun a => ?_
  show Calm (accept a >>= _)
  refine (calm_accept a).bind fun _ => Calm.closing env ((calm_demand env _).bind fun _ => ?_)
  refine (calm_demand env _).bind fun id => calm_refuseIf_bind identityLost_plain fun _ => ?_
  refine (calm_whenever fun h => absurd h.1 Bool.false_ne_true).bind fun _ => ?_
  refine (calm_whenever fun _ => calm_demandAll env _).bind fun _ => ?_
  refine (calm_whenever fun _ => calm_demandAll env _).bind fun _ => ?_
  refine Calm.bind (calm_whenever fun h => absurd h (by decide)) fun _ => ?_
  refine (calm_demandAll env _).bind fun _ => (calm_demandAll env _).bind fun _ => (calm_retain _).bind fun _ => ?_
  exact (calm_check env).bind fun _ => calm_pure _

lemma calm_observe (step : Step) : Calm (observe env hash paths step false) := by
  refine calm_ite (fun _ => calm_observeMovedRestoreFile env paths step) fun _ => ?_
  refine calm_ite (fun _ => calm_observeAttribute env hash step) fun _ => ?_
  exact calm_ite (fun _ => calm_observeRoot env paths step) fun _ => calm_observeMember env hash paths step

end Observers

def stepKey (s : Step) : Kind × Text × Text := (s.kind, s.path, s.attr)

def planned (paths : Paths) (m : Member) : List (Kind × Text × Text) :=
  (if m.request.rootCreation = createPrivate then [(.rootDirectory, m.request.rootPath, [])] else []) ++
    (.attr, m.request.rootPath, rootGenerationAttribute) ::
    m.plan.sources.map (fun source => (source.file.kind, paths.join m.request.rootPath source.file.path, [])) ++
    (m.plan.owners.flatMap fun owner => owner.attributes.map fun spec =>
      (.attr, attributePath paths m.request spec, spec.name)) ++
    [(.file, m.request.markerPath, []), (.file, m.request.leasePath, []), (.file, m.request.declarationPath, [])]

def Met (ks : List (Kind × Text × Text)) (cs : List Record) (n : ℕ) : Prop :=
  ∀ i < n, ∃ r, cs[i]? = some r ∧ ks[i]? = some (stepKey r.step)

def Quiet (w : World Op Apply) : Prop := ∀ op ∈ w.trace, op.IsQuery

lemma Quiet.query {w : World Op Apply} (h : Quiet w) (q : Query) (s : Apply) :
    Quiet ⟨w.trace ++ [.query q], s⟩ := by
  intro op hop
  rcases List.mem_append.1 hop with hold | hnew
  · exact h op hold
  · obtain rfl : op = .query q := by simpa using hnew
    trivial

structure Walking (m : Member) (cs : List Record) (w : World Op Apply) : Prop where
  quiet : Quiet w
  failed : .incomplete ∉ w.self.failed
  member : w.self.member = m
  readOnly : w.self.readOnly = true
  completed : w.self.session.completed = cs

structure Stands (m : Member) (ks : List (Kind × Text × Text)) (cs : List Record) (j : ℕ) (w : World Op Apply) :
    Prop where
  walking : Walking m cs w
  position : w.self.session.position = j
  met : Met ks cs j

section Walks

variable {α β : Type} {m : Member} {ks : List (Kind × Text × Text)} {cs : List Record} {j a b : ℕ}

lemma frame_walking (m : Member) (cs : List Record) : Frame (Walking m cs) where
  query _ q h := ⟨h.quiet.query q _, h.failed, h.member, h.readOnly, h.completed⟩
  touch _ _ h ht := ⟨h.quiet, ht.failed, ht.member.trans h.member, ht.readOnly.trans h.readOnly,
    (congrArg Session.completed ht.session).trans h.completed⟩
  failed _ h := h.failed

lemma frame_stands (m : Member) (ks : List (Kind × Text × Text)) (cs : List Record) (j : ℕ) :
    Frame (Stands m ks cs j) where
  query w q h := ⟨(frame_walking m cs).query w q h.walking, h.position, h.met⟩
  touch w s' h ht := ⟨(frame_walking m cs).touch w s' h.walking ht,
    (congrArg Session.position ht.session).trans h.position, h.met⟩
  failed _ h := h.walking.failed

def Stops (m : Member) (ks : List (Kind × Text × Text)) (cs : List Record) (e : List Leaf) (w : World Op Apply) : Prop :=
  Walking m cs w ∧ (.incomplete ∈ e → cs.length < ks.length)

def Walks (m : Member) (ks : List (Kind × Text × Text)) (cs : List Record) (j a : ℕ) (p : Run α) : Prop :=
  Spec (Stands m ks cs j) p (fun _ => Stands m ks cs (j + a)) (Stops m ks cs)

lemma Calm.walks {p : Run α} (h : Calm p) : Walks m ks cs j 0 p :=
  (h _ (frame_stands m ks cs j)).mono (fun _ hw => hw) (fun _ _ hw => hw)
    fun _ _ hw => ⟨hw.1.walking, fun hi => absurd hi hw.2⟩

lemma Walks.bind {p : Run α} {f : α → Run β} (hp : Walks m ks cs j a p) (hf : ∀ x, Walks m ks cs (j + a) b (f x)) :
    Walks m ks cs j (a + b) (p >>= f) := by
  unfold Walks
  rw [← Nat.add_assoc]
  exact Spec.bind hp hf

lemma Calm.walks_bind {p : Run α} {f : α → Run β} (hp : Calm p) (hf : ∀ x, Walks m ks cs j a (f x)) :
    Walks m ks cs j a (p >>= f) := by
  rw [← Nat.zero_add a]
  exact Walks.bind hp.walks hf

lemma Walks.bind_calm {p : Run α} {f : α → Run β} (hp : Walks m ks cs j a p) (hf : ∀ x, Calm (f x)) :
    Walks m ks cs j a (p >>= f) :=
  Walks.bind hp fun x => (hf x).walks

variable (env : List Op → Op → Answer) (hash : Bytes → Fin 64 → Fin 16) (paths : Paths)

lemma preflightNextStep_stops (step : Step) (hlen : cs.length < ks.length) :
    Spec (Stands m ks cs j) (preflightNextStep env hash paths step) (fun _ _ => False) (Stops m ks cs) := by
  have hstop : ∀ e w, Stands m ks cs j w → Stops m ks cs e w := fun e w hw => ⟨hw.walking, fun _ => hlen⟩
  have hthen {α : Type} {p : Run α} {f : α → Run Unit} (hp : Calm p)
      (hf : ∀ x, Spec (Stands m ks cs j) (f x) (fun _ _ => False) (Stops m ks cs)) :
      Spec (Stands m ks cs j) (p >>= f) (fun _ _ => False) (Stops m ks cs) :=
    Spec.bind ((hp _ (frame_stands m ks cs j)).mono (fun _ hw => hw) (fun _ _ hw => hw) fun e w hw => hstop e w hw.1) hf
  have hfail (e : List Leaf) : Spec (Stands m ks cs j) (fail e : Run Unit) (fun _ _ => False) (Stops m ks cs) :=
    Spec.fail (hstop e)
  refine Spec.self_bind fun s => ?_
  suffices h : Spec (Stands m ks cs j) _ (fun _ _ => False) (Stops m ks cs) from
    h.mono (fun _ hw => hw.1) (fun _ _ hw => hw) fun _ _ hw => hw
  cases s.session.pending with
  | none => exact hthen (calm_requireAbsent env step) fun _ => hfail _
  | some pending =>
      refine hthen (calm_refuse identityLost_plain) fun _ => ?_
      split
      · exact hthen (calm_freshReservedRoot env) fun _ => hfail _
      · refine hthen (Calm.attempt (calm_ite (fun _ => calm_requireAbsent env step) fun _ => calm_fail refusal_plain))
          fun absent => ?_
        cases absent with
        | ok _ =>
            cases step.source with
            | none => exact hfail _
            | some source =>
                refine hthen (calm_demand env _) fun _ => hthen (Calm.closing env ?_) fun _ => hfail _
                exact (calm_demand env _).bind fun id => calm_refuseIf_bind identityLost_plain fun _ =>
                  calm_demandAll env _
        | error _ =>
            refine hthen (calm_observe env hash paths step).attempt fun observed => ?_
            cases observed with
            | ok _ => exact hfail _
            | error e =>
                show Spec _ ((if _ then requireAbsent env step else fail e) >>= fun _ => fail [.incomplete]) _ _
                split
                · exact hthen (calm_requireAbsent env step) fun _ => hfail _
                · exact Spec.bind (Q := fun _ _ => False) (hfail e) fun _ _ hw => hw.elim

lemma walks_step {st : Step} (hkey : ks[j]? = some (stepKey st)) : Walks m ks cs j 1 (step env hash paths st) := by
  refine (calm_check env).walks_bind fun _ => Spec.self_bind fun s => ?_
  cases hget : s.session.completed[s.session.position]? with
  | none =>
      -- The position is past the complete records, so that this key has none.
      intro w hw
      have hcs : s.session.completed = cs := hw.2 ▸ hw.1.walking.completed
      have hpos : s.session.position = j := hw.2 ▸ hw.1.position
      have hread : s.readOnly = true := hw.2 ▸ hw.1.walking.readOnly
      have hle : cs.length ≤ j := by
        rw [← hcs, ← hpos]
        exact List.getElem?_eq_none_iff.1 hget
      have hlt : j < ks.length := (List.getElem?_eq_some_iff.1 hkey).1
      dsimp only
      rw [if_pos hread]
      exact (preflightNextStep_stops env hash paths st (hle.trans_lt hlt)).mono (fun _ h => h) (fun _ _ h => h.elim)
        (fun _ _ h => h) w hw.1
  | some completed =>
      dsimp only
      refine Spec.bind (M := fun _ w => (Stands m ks cs j w ∧ w.self.session = s.session) ∧ completed.step = st) ?_ fun _ => ?_
      · unfold refuseIf
        split
        · exact Spec.fail fun w hw => ⟨hw.1.walking, fun hi => absurd hi identityLost_plain⟩
        · rename_i hsame
          exact Spec.pure fun w hw => ⟨⟨hw.1, congrArg Apply.session hw.2⟩, not_not.1 hsame⟩
      · have hframe : Frame fun w => (Stands m ks cs j w ∧ w.self.session = s.session) ∧ completed.step = st := by
          refine ⟨fun w q h => ⟨⟨(frame_stands m ks cs j).query w q h.1.1, h.1.2⟩, h.2⟩, fun w s' h ht => ?_,
            fun w h => h.1.1.walking.failed⟩
          exact ⟨⟨(frame_stands m ks cs j).touch w s' h.1.1 ht, ht.session.trans h.1.2⟩, h.2⟩
        have hcalm : Calm (observe env hash paths st false >>= fun identity =>
            refuseIf (identity ≠ completed.identity) identityLost) :=
          (calm_observe env hash paths st).bind fun _ => calm_refuse identityLost_plain
        rw [← Prog.bind_assoc]
        refine Spec.bind ((hcalm _ hframe).mono (fun _ h => h) (fun _ _ h => h)
          fun _ _ h => ⟨h.1.1.1.walking, fun hi => absurd hi h.2⟩) fun _ => Spec.update fun w hw => ?_
        obtain ⟨⟨hstands, hsession⟩, hstep⟩ := hw
        refine ⟨⟨hstands.walking.quiet, hstands.walking.failed, hstands.walking.member, hstands.walking.readOnly,
          hstands.walking.completed⟩, congrArg (· + 1) hstands.position, fun i hi => ?_⟩
        rcases Nat.lt_succ_iff_lt_or_eq.1 hi with hlt | rfl
        · exact hstands.met i hlt
        · refine ⟨completed, ?_, hstep ▸ hkey⟩
          rw [← hstands.walking.completed, hsession, ← hget, ← hsession, hstands.position]

def Follows (ks : List (Kind × Text × Text)) (j : ℕ) (l : List (Kind × Text × Text)) : Prop :=
  ∀ i < l.length, ks[j + i]? = l[i]?

lemma Follows.tail {k : Kind × Text × Text} {l : List (Kind × Text × Text)} (h : Follows ks j (k :: l)) :
    Follows ks (j + 1) l := by
  intro i hi
  have hnext := h (i + 1) (by simpa using hi)
  rwa [show j + (i + 1) = j + 1 + i by omega, List.getElem?_cons_succ] at hnext

lemma Follows.head {k : Kind × Text × Text} {l : List (Kind × Text × Text)} (h : Follows ks j (k :: l)) :
    ks[j]? = some k := h 0 (by simp)

lemma Follows.left {l r : List (Kind × Text × Text)} (h : Follows ks j (l ++ r)) : Follows ks j l := by
  intro i hi
  rw [h i (by rw [List.length_append]; omega), List.getElem?_append_left hi]

lemma Follows.right {l l' : List (Kind × Text × Text)} (h : Follows ks j (l ++ l')) :
    Follows ks (j + l.length) l' := by
  intro i hi
  have hnext := h (l.length + i) (by rw [List.length_append]; omega)
  rwa [← Nat.add_assoc, List.getElem?_append_right (Nat.le_add_right _ _), Nat.add_sub_cancel_left] at hnext

lemma walks_stepAll {l : List Step} (h : Follows ks j (l.map stepKey)) :
    Walks m ks cs j l.length (stepAll env hash paths l) := by
  induction l generalizing j with
  | nil => exact (calm_pure ()).walks
  | cons st rest ih =>
      rw [List.length_cons, Nat.add_comm]
      exact (walks_step env hash paths h.head).bind fun _ => ih h.tail

lemma walks_attributeSteps (request : Request) {specs : List Journal.AttributeSpec} {prepared : List PreparedAttribute}
    (hlen : prepared.length = specs.length) (used : ℕ)
    (h : Follows ks j (specs.map fun spec => (.attr, attributePath paths request spec, spec.name))) :
    Walks m ks cs j specs.length (attributeSteps env hash paths request specs prepared used) := by
  induction specs generalizing j prepared used with
  | nil =>
      rw [attributeSteps]
      exact (calm_pure _).walks
  | cons spec specs ih =>
      cases prepared with
      | nil => exact absurd hlen (by simp)
      | cons a rest =>
          rw [attributeSteps, List.length_cons, Nat.add_comm]
          refine Spec.bind (M := fun _ w => Stands m ks cs j w ∧ a.spec = spec) ?_ fun _ w hw => ?_
          · unfold refuseIf
            split
            · exact Spec.fail fun w hw => ⟨hw.walking, fun hi => absurd hi refusal_plain⟩
            · rename_i hgood
              exact Spec.pure fun w hw => ⟨hw, not_not.1 (not_or.1 hgood).1⟩
          · obtain ⟨hstands, rfl⟩ := hw
            refine Walks.bind (walks_step env hash paths ?_) (fun _ => ih (by simpa using hlen) _ h.tail) w hstands
            exact h.head

lemma walks_ownerSteps (request : Request) {owners : List OwnerPlan} (used : ℕ)
    (h : Follows ks j (owners.flatMap fun owner => owner.attributes.map fun spec =>
      (.attr, attributePath paths request spec, spec.name))) :
    Walks m ks cs j (owners.map fun owner => owner.attributes.length).sum
      (ownerSteps env hash paths request owners used) := by
  induction owners generalizing j used with
  | nil => exact (calm_pure ()).walks
  | cons owner rest ih =>
      rw [List.flatMap_cons] at h
      refine (calm_demandAll env _).walks_bind fun _ => (calm_demand env _).walks_bind fun a => ?_
      refine Spec.bind (M := fun _ w => Stands m ks cs j w ∧ a.prepared.length = owner.attributes.length) ?_
        fun _ w hw => ?_
      · unfold refuseIf
        split
        · exact Spec.fail fun w hw => ⟨hw.walking, fun hi => absurd hi refusal_plain⟩
        · rename_i hsame
          exact Spec.pure fun w hw => ⟨hw, not_not.1 hsame⟩
      · rw [List.map_cons, List.sum_cons]
        refine Walks.bind (walks_attributeSteps env hash paths request hw.2 _ h.left) (fun used' => ?_) w hw.1
        have hright := h.right
        rw [List.length_map] at hright
        exact ih used' hright

lemma follows_self (ks : List (Kind × Text × Text)) : Follows ks 0 ks := fun i _ => by rw [Nat.zero_add]

lemma map_stepKey_memberSteps (m : Member) :
    (memberSteps hash paths m.request m.plan).map stepKey =
      (if m.request.rootCreation = createPrivate then [(.rootDirectory, m.request.rootPath, [])] else []) ++
        (.attr, m.request.rootPath, rootGenerationAttribute) ::
        m.plan.sources.map (fun source => (source.file.kind, paths.join m.request.rootPath source.file.path, [])) := by
  unfold memberSteps
  rw [List.map_append, List.map_cons, List.map_map]
  split <;> rfl

lemma walks_runBody (m : Member) (cs : List Record) :
    Walks m (planned paths m) cs 0 (planned paths m).length (runBody env hash paths m.request m.plan) := by
  have hmember := map_stepKey_memberSteps hash paths m
  have hplanned : planned paths m = (memberSteps hash paths m.request m.plan).map stepKey ++
      (m.plan.owners.flatMap fun owner => owner.attributes.map fun spec =>
        (.attr, attributePath paths m.request spec, spec.name)) ++
      [(.file, m.request.markerPath, []), (.file, m.request.leasePath, []), (.file, m.request.declarationPath, [])] := by
    rw [hmember]
    rfl
  have hlength : (planned paths m).length = (memberSteps hash paths m.request m.plan).length +
      ((m.plan.owners.map fun owner => owner.attributes.length).sum +
        ((metadataSteps hash m.request m.plan).length + 1)) := by
    rw [hplanned]
    simp only [List.length_append, List.length_flatMap, List.length_map, metadataSteps, List.length_cons,
      List.length_nil]
    omega
  have hall := follows_self (planned paths m)
  rw [hlength]
  nth_rewrite 2 [hplanned] at hall
  have hfirst := hall.left.left
  have howners := hall.left.right
  have hlast := hall.right
  rw [List.length_map] at howners
  rw [List.length_append, List.length_map, List.length_flatMap] at hlast
  simp only [List.length_map] at hlast
  refine (walks_stepAll env hash paths hfirst).bind fun _ => ?_
  refine Walks.bind (walks_ownerSteps env hash paths m.request 0 howners) fun _ => ?_
  rw [← Nat.add_assoc] at hlast
  refine Walks.bind (walks_stepAll env hash paths ?_) fun _ => ?_
  · exact Follows.left (r := [(.file, m.request.declarationPath, [])]) hlast
  refine (calm_demandAll env _).walks_bind fun _ => (calm_demandAll env _).walks_bind fun _ => ?_
  refine Walks.bind_calm (walks_step env hash paths ?_) fun _ => ?_
  · exact hlast.tail.tail.head
  · exact calm_self_bind fun s => calm_refuseIf_bind identityLost_plain fun _ => calm_demandAll env _

lemma run_spec (m : Member) (cs : List Record) :
    Spec (Stands m (planned paths m) cs 0) (run env hash paths)
      (fun _ w => Walking m cs w ∧ Met (planned paths m) cs (planned paths m).length) (Stops m (planned paths m) cs) := by
  refine Spec.self_bind fun s w hw => ?_
  have hm : s.member = m := hw.2 ▸ hw.1.walking.member
  rw [hm]
  have hbody := walks_runBody env hash paths m cs
  have hrestore := calm_demandAll env [.checkRestore] _ (frame_walking m cs)
  refine Spec.joining (M := fun r w => Walking m cs w ∧ (∀ a, r = .ok a → Met (planned paths m) cs (planned paths m).length) ∧
    ∀ e, r = .error e → .incomplete ∈ e → cs.length < (planned paths m).length) ?_ ?_ ?_ w hw.1
  · refine Spec.mono hbody (fun _ h => h) (fun _ _ h => ⟨h.walking, fun _ _ => ?_, by rintro _ ⟨⟩⟩)
      fun e _ h => ⟨h.1, by rintro _ ⟨⟩, ?_⟩
    · have hmet := h.met
      rwa [Nat.zero_add] at hmet
    · rintro _ ⟨⟩
      exact h.2
  · intro a w h
    exact hrestore.mono (fun _ hw => hw) (fun _ _ hw => ⟨hw, h.2.1 a rfl⟩) (fun _ _ hw => ⟨hw.1, fun hi => absurd hi hw.2⟩) w h.1
  · intro e w h
    refine hrestore.mono (fun _ hw => hw) (fun _ _ hw => ⟨hw, h.2.2 e rfl⟩) (fun f _ hw => ⟨hw.1, fun hi => ?_⟩) w h.1
    rcases List.mem_append.1 hi with he | hf
    · exact h.2.2 e rfl he
    · exact absurd hf hw.2

end Walks

structure Still (w : World Op Apply) : Prop where
  quiet : Quiet w
  failed : .incomplete ∉ w.self.failed

structure Ready (m : Member) (w : World Op Apply) : Prop where
  quiet : Quiet w
  failed : .incomplete ∉ w.self.failed
  member : w.self.member = m
  position : w.self.session.position = 0

def Recorded (paths : Paths) (app : Apply) : Prop :=
  Met (planned paths app.member) app.session.completed (planned paths app.member).length

structure Settled (paths : Paths) (w : World Op Apply) : Prop where
  quiet : Quiet w
  failed : .incomplete ∉ w.self.failed
  complete : w.self.complete = true ↔ Recorded paths w.self

lemma frame_ready (m : Member) : Frame (Ready m) where
  query _ q h := ⟨h.quiet.query q _, h.failed, h.member, h.position⟩
  touch _ _ h ht := ⟨h.quiet, ht.failed, ht.member.trans h.member,
    (congrArg Session.position ht.session).trans h.position⟩
  failed _ h := h.failed

lemma frame_settled (paths : Paths) : Frame (Settled paths) where
  query _ q h := ⟨h.quiet.query q _, h.failed, h.complete⟩
  touch w s' h ht := by
    refine ⟨h.quiet, ht.failed, ?_⟩
    rw [ht.complete, h.complete, Recorded, Recorded, ht.member, ht.session]
  failed _ h := h.failed

lemma not_met {ks : List (Kind × Text × Text)} {cs : List Record} (h : cs.length < ks.length) :
    ¬ Met ks cs ks.length := by
  intro hmet
  obtain ⟨r, hr, -⟩ := hmet cs.length h
  simp at hr

section Preflight

variable {α β : Type} {m : Member} (env : List Op → Op → Answer) (hash : Bytes → Fin 64 → Fin 16) (paths : Paths)

lemma Calm.ready {p : Run α} (h : Calm p) : Spec (Ready m) p (fun _ => Ready m) fun _ => Still :=
  (h _ (frame_ready m)).mono (fun _ hw => hw) (fun _ _ hw => hw) fun _ _ hw => ⟨hw.1.quiet, hw.1.failed⟩

lemma readBack_ready (path : Text) (opened : Answer) :
    Spec (Ready m) (readBack env path opened) (fun _ => Ready m) fun _ => Still := by
  refine Spec.bind (calm_accept opened).ready fun _ => Spec.bind (M := fun _ => Ready m) (Spec.update ?_) fun _ => ?_
  · exact fun w hw => ⟨hw.quiet, hw.failed, hw.member, hw.position⟩
  refine Spec.bind (calm_demand env _).ready fun _ => Spec.bind (calm_demand env _).ready fun _ => ?_
  refine Spec.bind (calm_demand env _).ready fun _ => Spec.bind (calm_demand env _).ready fun c => ?_
  refine Spec.bind (M := fun _ => Ready m) (Spec.update ?_) fun _ => ?_
  · exact fun w hw => ⟨hw.quiet, hw.failed, hw.member, hw.position⟩
  exact Calm.ready (calm_refuseIf_bind identityLost_plain fun _ => (calm_demand env _).bind fun _ => calm_pure c)

lemma observeReservation_ready (root : Text) (sequence : ℕ) :
    Spec (Ready m) (observeReservation env root sequence) (fun _ => Ready m) fun _ => Still := by
  refine Spec.bind (calm_ask env _).ready fun r => ?_
  split
  · exact Calm.ready (calm_refuseIf_bind identityLost_plain fun _ => calm_demandAll env _)
  · refine Spec.bind (calm_accept r).ready fun _ => Spec.bind (calm_refuse identityLost_plain).ready fun _ => ?_
    exact Spec.update fun w hw => ⟨hw.quiet, hw.failed, hw.member, hw.position⟩

lemma preflightControl_ready : Spec (Ready m) (preflightControl env) (fun _ => Ready m) fun _ => Still := by
  refine Spec.self_bind fun s w hw => ?_
  refine Spec.bind (calm_ask env _).ready (fun a => ?_) w hw.1
  split
  · refine Calm.ready ((calm_demandAll env _).bind fun _ => (calm_demand env _).bind fun _ => ?_)
    exact (calm_demand env _).bind fun _ => (calm_demand env _).bind fun _ => calm_check env
  · refine Spec.bind (readBack_ready env _ a) fun c => Spec.bind (observeReservation_ready env _ _) fun _ => ?_
    exact (calm_check env).ready

def Told (m : Member) (cs : List Record) (r : Except (List Leaf) Unit) (w : World Op Apply) : Prop :=
  Walking m cs w ∧ (∀ a, r = .ok a → Met (planned paths m) cs (planned paths m).length) ∧
    ∀ e, r = .error e → .incomplete ∈ e → cs.length < (planned paths m).length

lemma preflightOutcome_settled (cs : List Record) (r : Except (List Leaf) Unit) :
    Spec (Told paths m cs r) (preflightOutcome env r) (fun _ => Settled paths) fun _ => Still := by
  have hrest : Calm (do
      demandAll env [.census true]
      let s ← self
      let request := s.member.request
      whenever (request.markerPath ∉ s.retained) (demandAll env [.absent request.markerPath])
      whenever (request.leasePath ∉ s.retained) (demandAll env [.absent request.leasePath])
      whenever (request.declarationPath ∉ s.retained) (demandAll env [.absent request.declarationPath])
      joining (check env) (demandAll env [.checkRestore]) : Run Unit) := by
    refine (calm_demandAll env _).bind fun _ => calm_self_bind fun s => ?_
    refine (calm_whenever fun _ => calm_demandAll env _).bind fun _ => ?_
    refine (calm_whenever fun _ => calm_demandAll env _).bind fun _ => ?_
    refine (calm_whenever fun _ => calm_demandAll env _).bind fun _ => ?_
    exact (calm_check env).joining (calm_demandAll env _)
  have hsettled : Spec (Settled paths) _ (fun _ => Settled paths) fun _ => Still :=
    (hrest _ (frame_settled paths)).mono (fun _ hw => hw) (fun _ _ hw => hw) fun _ _ hw => ⟨hw.1.quiet, hw.1.failed⟩
  refine Spec.bind (M := fun _ w => Told paths m cs r w ∧ w.self.complete = r.isOk) (Spec.update ?_) fun _ => ?_
  · exact fun w hw => ⟨⟨⟨hw.1.quiet, hw.1.failed, hw.1.member, hw.1.readOnly, hw.1.completed⟩, hw.2⟩, rfl⟩
  refine Spec.bind (M := fun _ => Settled paths) ?_ fun _ => hsettled
  have hrecorded {w : World Op Apply} (hw : Walking m cs w) :
      Recorded paths w.self ↔ Met (planned paths m) cs (planned paths m).length := by
    rw [Recorded, hw.member, hw.completed]
  cases r with
  | ok a =>
      refine Spec.pure fun w hw => ⟨hw.1.1.quiet, hw.1.1.failed, ?_⟩
      rw [hw.2, hrecorded hw.1.1]
      exact iff_of_true rfl (hw.1.2.1 a rfl)
  | error e =>
      show Spec _ (refuseIf (.incomplete ∉ e) e) _ _
      unfold refuseIf
      split
      · exact Spec.fail fun w hw => ⟨hw.1.1.quiet, hw.1.1.failed⟩
      · rename_i hi
        refine Spec.pure fun w hw => ⟨hw.1.1.quiet, hw.1.1.failed, ?_⟩
        rw [hw.2, hrecorded hw.1.1]
        exact iff_of_false Bool.false_ne_true (not_met (hw.1.2.2 e rfl (not_not.1 hi)))

lemma preflight_settled : Spec (Ready m) (preflight env hash paths) (fun _ => Settled paths) fun _ => Still := by
  refine Spec.bind (preflightControl_ready env) fun _ => ?_
  refine Spec.bind (M := fun _ w => ∃ cs, Stands m (planned paths m) cs 0 w) (Spec.update ?_) fun _ => ?_
  · intro w hw
    refine ⟨w.self.session.completed, ⟨hw.quiet, hw.failed, hw.member, rfl, rfl⟩, hw.position, ?_⟩
    exact fun i hi => absurd hi (Nat.not_lt_zero i)
  refine Spec.joining (M := fun r w => Still w ∧ ∀ a, r = .ok a → Settled paths w) ?_ (fun a => ?_) fun e => ?_
  · rintro w ⟨cs, hw⟩
    refine Spec.mono (Spec.bind (M := fun r => Told paths m cs r) (Spec.attempt ?_) fun r => ?_) (fun _ h => h)
      (fun _ _ h => ⟨⟨h.quiet, h.failed⟩, fun _ _ => h⟩) (fun _ _ h => ⟨h, by rintro _ ⟨⟩⟩) w hw
    · refine (run_spec env hash paths m cs).mono (fun _ h => h) (fun _ _ h => ⟨h.1, fun _ _ => h.2, by rintro _ ⟨⟩⟩)
        fun e _ h => ⟨h.1, by rintro _ ⟨⟩, ?_⟩
      rintro _ ⟨⟩
      exact h.2
    · exact preflightOutcome_settled env paths cs r
  · refine Spec.update fun w hw => ?_
    have hsettled := hw.2 a rfl
    exact ⟨hsettled.quiet, hsettled.failed, hsettled.complete⟩
  · exact Spec.update fun w hw => ⟨hw.1.quiet, hw.1.failed⟩

end Preflight

lemma frame_still : Frame Still where
  query _ q h := ⟨h.quiet.query q _, h.failed⟩
  touch _ _ h ht := ⟨h.quiet, ht.failed⟩
  failed _ h := h.failed

lemma frame_touched (app : Apply) : Frame fun w => Quiet w ∧ Touched app w.self where
  query _ q h := ⟨h.1.query q _, h.2⟩
  touch _ _ h ht := ⟨h.1, ht.member.trans h.2.member, ht.session.trans h.2.session, ht.readOnly.trans h.2.readOnly,
    ht.complete.trans h.2.complete, ht.failed⟩
  failed _ h := h.2.failed

section Admission

variable {α : Type} (env : List Op → Op → Answer) (hash : Bytes → Fin 64 → Fin 16) (paths : Paths)

lemma Calm.still {p : Run α} (h : Calm p) : Spec Still p (fun _ => Still) fun _ => Still :=
  (h _ frame_still).mono (fun _ hw => hw) (fun _ _ hw => hw) fun _ _ hw => hw.1

lemma Calm.touched {p : Run α} (h : Calm p) {app : Apply} (happ : .incomplete ∉ app.failed) :
    Spec (fun w => Quiet w ∧ w.self = app) p (fun _ w => Quiet w ∧ Touched app w.self) fun _ => Still := by
  refine (h _ (frame_touched app)).mono (fun w hw => ⟨hw.1, ?_⟩) (fun _ _ hw => hw) fun _ _ hw => ⟨hw.1.1, hw.1.2.failed⟩
  rw [hw.2]
  exact ⟨rfl, rfl, rfl, rfl, happ⟩

lemma calm_orRefuse (a : Option α) : Calm (orRefuse a) := by
  cases a with
  | none => exact calm_fail refusal_plain
  | some a => exact calm_pure a

lemma admitMember_opened (cohort : CohortPlan) (index : ℕ) (path : Text) (earlier : Option Text) (used : Usage) :
    Spec Still (admitMember env paths cohort index path earlier used)
      (fun r w => Still w ∧ ∃ m, r.1 = openedApply m) fun _ => Still := by
  refine Spec.bind (calm_demand env _).still fun size => Spec.bind (calm_refuse refusal_plain).still fun _ => ?_
  refine Spec.bind (calm_demand env _).still fun opened => Spec.bind (calm_refuse refusal_plain).still fun _ => ?_
  refine Spec.bind (calm_ask env _).still fun control => ?_
  refine Spec.bind (calm_whenever fun _ => calm_accept control).still fun _ => ?_
  refine Spec.bind (calm_orRefuse _).still fun maximum => Spec.bind (calm_refuse refusal_plain).still fun _ => ?_
  refine Spec.bind (calm_orRefuse _).still fun counted => Spec.bind (calm_orRefuse _).still fun attributes => ?_
  refine Spec.bind (calm_refuse refusal_plain).still fun _ => ?_
  exact Spec.pure fun w hw => ⟨hw, opened.member, rfl⟩

lemma admitMembers_opened (cohort : CohortPlan) (plans : List Text) (earlier : Option Text) (used : Usage) :
    Spec Still (admitMembers env paths cohort plans earlier used)
      (fun apps w => Still w ∧ apps.length = plans.length ∧ ∀ app ∈ apps, ∃ m, app = openedApply m)
      fun _ => Still := by
  induction plans generalizing earlier used with
  | nil => exact Spec.pure fun w hw => ⟨hw, rfl, by simp⟩
  | cons path rest ih =>
      refine Spec.bind (admitMember_opened env paths cohort _ path earlier used) fun admitted w hw => ?_
      refine Spec.bind (ih _ _) (fun apps => Spec.pure fun w' hw' => ?_) w hw.1
      refine ⟨hw'.1, congrArg (· + 1) hw'.2.1, List.forall_mem_cons.2 ⟨hw.2, hw'.2.2⟩⟩

lemma eachMember_spec {p : Run Unit} {A : Apply → Prop} {B : Apply → Apply → Prop}
    (hfailed : ∀ app out, B app out → .incomplete ∉ out.failed)
    (hp : ∀ app, A app → Spec (fun w => Quiet w ∧ w.self = app) p (fun _ w => Quiet w ∧ B app w.self) fun _ => Still)
    {apps : List Apply} (h : ∀ app ∈ apps, A app) :
    Spec Still (eachMember p apps) (fun out w => Still w ∧ List.Forall₂ B apps out) fun _ => Still := by
  induction apps with
  | nil => exact Spec.pure fun w hw => ⟨hw, .nil⟩
  | cons app rest ih =>
      obtain ⟨happ, hrest⟩ := List.forall_mem_cons.1 h
      have hfirst : Spec Still (within app p) (fun out w => Still w ∧ B app out) fun _ => Still := by
        refine Spec.bind (M := fun _ w => Quiet w ∧ w.self = app) (Spec.update fun w hw => ⟨hw.quiet, rfl⟩) fun _ => ?_
        refine Spec.bind (hp app happ) fun _ w hw => ?_
        exact ⟨⟨hw.1, hfailed app _ hw.2⟩, hw.2⟩
      refine Spec.bind hfirst fun out w hw => ?_
      exact Spec.bind (ih hrest) (fun outs => Spec.pure fun w' hw' => ⟨hw'.1, .cons hw.2 hw'.2⟩) w hw.1

def Admitted (app : Apply) : Prop := .incomplete ∉ app.failed ∧ (app.complete = true ↔ Recorded paths app)

lemma Admitted.touched {app out : Apply} (h : Admitted paths app) (ht : Touched app out) : Admitted paths out := by
  refine ⟨ht.failed, ?_⟩
  rw [ht.complete, h.2, Recorded, Recorded, ht.member, ht.session]

lemma forall_of_forall₂ {B : Apply → Apply → Prop} {C : Apply → Prop} {apps outs : List Apply}
    (h : List.Forall₂ B apps outs) (hB : ∀ app ∈ apps, ∀ out, B app out → C out) : ∀ out ∈ outs, C out := by
  induction h with
  | nil => simp
  | cons hb _ ih =>
      refine List.forall_mem_cons.2 ⟨hB _ List.mem_cons_self _ hb, ih fun app happ => ?_⟩
      exact hB app (List.mem_cons_of_mem _ happ)

lemma admitCohort_spec (cohort : CohortPlan) :
    Spec Still (admitCohort env hash paths cohort)
      (fun apps w => Still w ∧ apps.length = cohort.plans.length ∧ ∀ app ∈ apps, Admitted paths app)
      fun _ => Still := by
  refine Spec.bind (calm_demandAll env _).still fun _ => ?_
  refine Spec.bind (admitMembers_opened env paths cohort _ _ _) fun apps w hw => ?_
  refine Spec.bind (calm_demandAll env _).still (fun _ => Spec.bind (calm_demandAll env _).still fun _ => ?_) w hw.1
  refine Spec.bind (calm_demandAll env _).still fun _ => ?_
  refine Spec.bind (eachMember_spec (A := fun app => ∃ m, app = openedApply m) (B := fun _ out => Admitted paths out)
    (fun _ _ h => h.1) ?_ hw.2.2) fun apps₁ w₁ hw₁ => ?_
  · rintro _ ⟨m, rfl⟩
    refine (preflight_settled (m := m) env hash paths).mono (fun w' hw' => ?_)
      (fun _ _ h => ⟨h.quiet, h.failed, h.complete⟩) fun _ _ h => h
    obtain ⟨hquiet, hself⟩ := hw'
    refine ⟨hquiet, ?_, ?_, ?_⟩ <;> rw [hself]
    · exact List.not_mem_nil
    · rfl
    · rfl
  have hadmitted := forall_of_forall₂ hw₁.2 fun _ _ _ h => h
  refine Spec.bind (eachMember_spec (A := Admitted paths) (B := fun app out => Touched app out)
    (fun _ _ h => h.failed) (fun app happ => (calm_check env).touched happ.1) hadmitted) (fun apps₂ w₂ hw₂ => ?_) w₁ hw₁.1
  refine Spec.bind (calm_demandAll env _).still (fun _ => Spec.pure fun w₃ hw₃ => ⟨hw₃, ?_, ?_⟩) w₂ hw₂.1
  · rw [← hw₂.2.length_eq, ← hw₁.2.length_eq, hw.2.1]
  · exact forall_of_forall₂ hw₂.2 fun app happ out ht => (hadmitted app happ).touched paths ht

lemma all_complete_iff {apps members : List Apply} (hadmitted : ∀ app ∈ apps, Admitted paths app)
    (h : List.Forall₂ (fun app out => Touched app out) apps members) :
    apps.all Apply.complete = true ↔ ∀ app ∈ members, Recorded paths app := by
  induction h with
  | nil => simp
  | @cons app out apps members ht _ ih =>
      obtain ⟨happ, hrest⟩ := List.forall_mem_cons.1 hadmitted
      have hout := happ.touched paths ht
      rw [List.all_cons, Bool.and_eq_true, List.forall_mem_cons, ih hrest, ← hout.2, ht.complete]

lemma prepareCohort_observes (cohort : CohortPlan) :
    Spec Still (prepareCohort env hash paths cohort false)
      (fun result w => Quiet w ∧ result.members.length = cohort.plans.length ∧
        (result.complete = true ↔ ∀ app ∈ result.members, Recorded paths app)) fun _ => Quiet := by
  have hclose := (calm_demandAll env [.close]).still
  refine Spec.joining (M := fun r w => Still w ∧ ∀ result, r = .ok result →
    result.members.length = cohort.plans.length ∧ (result.complete = true ↔ ∀ app ∈ result.members, Recorded paths app))
    ?_ (fun result w hw => ?_) fun e w hw => ?_
  · refine Spec.mono (Q := fun result w => Still w ∧ result.members.length = cohort.plans.length ∧
      (result.complete = true ↔ ∀ app ∈ result.members, Recorded paths app)) (R := fun _ => Still) ?_ (fun _ h => h)
      (fun _ _ h => ⟨h.1, by rintro _ ⟨⟩; exact h.2⟩) fun _ _ h => ⟨h, by rintro _ ⟨⟩⟩
    refine Spec.bind (admitCohort_spec env hash paths cohort) fun apps w hw => ?_
    obtain ⟨hstill, hlength, hadmitted⟩ := hw
    refine Spec.bind (M := fun out w => Still w ∧ out = apps) (Spec.pure fun _ h => ⟨h, rfl⟩) (fun out w₁ hw₁ => ?_)
      w hstill
    obtain ⟨hstill₁, rfl⟩ := hw₁
    refine Spec.bind (eachMember_spec (A := Admitted paths) (B := fun app out => Touched app out)
      (fun _ _ h => h.failed) (fun app happ => (calm_demandAll env _).touched happ.1) hadmitted)
      (fun members w₂ hw₂ => ?_) w₁ hstill₁
    refine Spec.bind (calm_demandAll env _).still (fun _ => Spec.pure fun w₃ hw₃ => ⟨hw₃, ?_, ?_⟩) w₂ hw₂.1
    · rw [← hlength, hw₂.2.length_eq]
    · show (false || out.all Apply.complete) = true ↔ ∀ app ∈ members, Recorded paths app
      rw [Bool.false_or]
      exact all_complete_iff paths hadmitted hw₂.2
  · exact hclose.mono (fun _ h => h) (fun _ _ h => ⟨h.quiet, hw.2 result rfl⟩) (fun _ _ h => h.quiet) w hw.1
  · exact hclose.mono (fun _ h => h) (fun _ _ h => h.quiet) (fun _ _ h => h.quiet) w hw.1

lemma prepareCohort_refused (cohort : CohortPlan) (apply : Bool) {w : World Op Apply} (hw : Still w) {e : List Leaf}
    (he : (admitCohort env hash paths cohort w).1 = .error e) :
    Quiet (prepareCohort env hash paths cohort apply w).2 ∧
      ∃ f, (prepareCohort env hash paths cohort apply w).1 = .error f := by
  have hadmits := admitCohort_spec env hash paths cohort w hw
  have hclose := (calm_demandAll env [.close]).still
  have hends : Ends (fun _ _ => False) (fun _ => Quiet) (prepareCohort env hash paths cohort apply w) := by
    refine Spec.joining (P := fun w' => w' = w) (M := fun r w => Still w ∧ ∃ f, r = .error f) ?_ (fun a w₁ h => ?_)
      (fun f w₁ h => ?_) w rfl
    · refine Spec.bind (M := fun _ _ => False) ?_ fun _ _ h => h.elim
      rintro _ rfl
      generalize admitCohort env hash paths cohort _ = r at hadmits he
      obtain ⟨f | apps, w₁⟩ := r
      · exact ⟨hadmits, f, rfl⟩
      · cases he
    · obtain ⟨f, hf⟩ := h.2
      cases hf
    · exact hclose.mono (fun _ h => h) (fun _ _ h => h.quiet) (fun _ _ h => h.quiet) w₁ h.1
  generalize prepareCohort env hash paths cohort apply w = r at hends
  obtain ⟨f | result, w₁⟩ := r
  · exact ⟨hends, f, rfl⟩
  · exact hends.elim

/-- The cohort call from its start, in any environment. -/
theorem cohort_admission_changes_nothing (cohort : CohortPlan) (m : Member) :
    let start : World Op Apply := ⟨[], openedApply m⟩
    Quiet (admitCohort env hash paths cohort start).2 ∧
    (∀ e, (admitCohort env hash paths cohort start).1 = .error e →
      Quiet (prepareCohort env hash paths cohort true start).2 ∧
        ∃ f, (prepareCohort env hash paths cohort true start).1 = .error f) ∧
    Quiet (prepareCohort env hash paths cohort false start).2 ∧
    ∀ result, (prepareCohort env hash paths cohort false start).1 = .ok result →
      result.members.length = cohort.plans.length ∧
        (result.complete = true ↔ ∀ app ∈ result.members, Recorded paths app) := by
  intro start
  have hstart : Still start := ⟨by simp [Quiet, start], List.not_mem_nil⟩
  have hadmits := admitCohort_spec env hash paths cohort start hstart
  have hobserve := prepareCohort_observes env hash paths cohort start hstart
  refine ⟨?_, fun e he => prepareCohort_refused env hash paths cohort true hstart he, ?_, fun result hresult => ?_⟩
  · generalize admitCohort env hash paths cohort start = r at hadmits
    obtain ⟨f | apps, w⟩ := r
    · exact hadmits.quiet
    · exact hadmits.1.quiet
  · generalize prepareCohort env hash paths cohort false start = r at hobserve
    obtain ⟨f | result, w⟩ := r
    · exact hobserve
    · exact hobserve.1
  · generalize prepareCohort env hash paths cohort false start = r at hobserve hresult
    obtain ⟨f | result', w⟩ := r
    · cases hresult
    · cases hresult
      exact hobserve.2

end Admission

end UrConnect.DurableVolume.Cohort
