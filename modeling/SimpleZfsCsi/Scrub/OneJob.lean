import SimpleZfsCsi.Scrub.Controller

/-!
# One Job for a scrub

That a Job was started is recorded by a status write that follows its creation, and both are read
back from a cache. `Settled` is when a Job may go away: once the cache shows the scrub as
started, and no pass that has read it before is still under way.
-/

namespace SimpleZfsCsi.Scrub

open Library Api Program Concurrent

structure ScrubWorld where
  scrubs : Store ScrubJobSpec ScrubJobStatus
  jobs : FinMap String Job
  scrubCache : Informer String ZfsPoolScrubJob
  jobCache : Informer String Job
  template : Option JobSpec
  pools : List ZfsPool
  pods : String → List Terminated
  clock : Nat
  /-- the copy that a pass under way has read -/
  reading : String → Option ZfsPoolScrubJob
  /-- the Jobs that were created, each with the scrub it is for -/
  started : List (String × Nat)

namespace ScrubWorld

/-- Write the scrubs, and tell the cache of the new version of `name` if there is one. -/
def writeScrubs (s : ScrubWorld) (name : String)
    (st : Store ScrubJobSpec ScrubJobStatus) : ScrubWorld :=
  if st.revision = s.scrubs.revision then s
  else { s with scrubs := st, scrubCache := s.scrubCache.notify name (st.lookup name) }

/-- Write a Job, or remove it. -/
def writeJob (s : ScrubWorld) (name : String) (job : Option Job) : ScrubWorld :=
  { s with
    jobs := match job with
      | some job => s.jobs.insert name job
      | none => s.jobs.erase name
    jobCache := s.jobCache.notify name job }

/-- Answer a call of a pass for `t`. -/
def handle (t : String) : (e : ScrubCall) → ScrubWorld → e.Ret × ScrubWorld
  | .getScrubJob name, s =>
    match s.scrubCache.seen.lookup name with
    | none => (.error (.notFound name), s)
    | some cr => (.ok cr, { s with reading := Function.update s.reading t (some cr) })
  | .getJob name, s =>
    (match s.jobCache.seen.lookup name with
      | none => .error (.notFound name)
      | some job => .ok job, s)
  | .getTemplate, s => (.ok s.template, s)
  | .listPools, s => (.ok s.pools, s)
  | .createJob job, s =>
    match s.jobs.lookup job.name with
    | some _ => (.error (.alreadyExists job.name), s)
    | none => (.ok (), { s.writeJob job.name (some job) with
        started := (job.controller.map fun uid => (job.name, uid)).toList ++ s.started })
  | .updateStatus o, s =>
    ((s.scrubs.updateStatus o).1, s.writeScrubs o.name (s.scrubs.updateStatus o).2)
  | .listPods jobName, s => (.ok (s.pods jobName), s)
  | .now, s => (.ok s.clock, s)

end ScrubWorld

/-- The scrub has been started. -/
def Started (cr : ZfsPoolScrubJob) : Prop :=
  cr.status.phase = some .running ∨ cr.status.phase = some .succeeded ∨
    cr.status.phase = some .failed

def Terminal (cr : ZfsPoolScrubJob) : Prop :=
  cr.status.phase = some .succeeded ∨ cr.status.phase = some .failed

instance : DecidablePred Started := fun _ => inferInstanceAs (Decidable (_ ∨ _ ∨ _))

instance : DecidablePred Terminal := fun _ => inferInstanceAs (Decidable (_ ∨ _))

/-- What the cache shows is a scrub that has been started. -/
def Shows (copy : Option ZfsPoolScrubJob) : Prop := ∃ cr, copy = some cr ∧ Started cr

/-- What happens by itself. A Job goes away when `allowed` says so. -/
inductive Happens (allowed : ScrubWorld → String → Prop) : ScrubWorld → ScrubWorld → Prop where
  | create (s : ScrubWorld) (name : String) (spec : ScrubJobSpec) :
      Happens allowed s (s.writeScrubs name (s.scrubs.create s.clock name spec {}).2)
  | edit (s : ScrubWorld) (cr : ZfsPoolScrubJob) (spec : ScrubJobSpec)
      (current : s.scrubs.lookup cr.name = some cr) :
      Happens allowed s (s.writeScrubs cr.name (s.scrubs.update { cr with spec }).2)
  | deliverScrub (s : ScrubWorld) (name : String) :
      Happens allowed s { s with scrubCache := s.scrubCache.deliver name }
  | deliverJob (s : ScrubWorld) (name : String) :
      Happens allowed s { s with jobCache := s.jobCache.deliver name }
  | progress (s : ScrubWorld) (name : String) (job : Job) (startTime : Option Nat)
      (conditions : List JobCondition) (current : s.jobs.lookup name = some job) :
      Happens allowed s (s.writeJob name (some { job with startTime, conditions }))
  | other (s : ScrubWorld) (job : Job) (foreign : job.controller = none)
      (free : s.jobs.lookup job.name = none) : Happens allowed s (s.writeJob job.name (some job))
  | delete (s : ScrubWorld) (name : String) (may : allowed s name) :
      Happens allowed s (s.writeJob name none)
  | cluster (s : ScrubWorld) (template : Option JobSpec) (pools : List ZfsPool)
      (pods : String → List Terminated) (clock : Nat) :
      Happens allowed s { s with template, pools, pods, clock }

/-- One worker for each scrub. -/
def scrubSystem (allowed : ScrubWorld → String → Prop) :
    System ScrubWorld String String ScrubCall ScrubCall.Ret (Except Err Requeue) where
  handle := ScrubWorld.handle
  fails _ r := ∃ msg, r = .error (.other msg)
  program name := (ZfsPoolScrubJobReconciler.reconcile name).run
  takes i t := i = t
  starts _ _ := True
  finish t _ s := { s with reading := Function.update s.reading t none }
  env := Happens allowed

/-- The cache shows the scrub of the Job as started, and so does every pass under way. -/
def Settled (s : ScrubWorld) (name : String) : Prop :=
  ∀ job cr, s.jobs.lookup name = some job → s.scrubs.lookup name = some cr →
    job.controller = some cr.metadata.uid →
    Shows (s.scrubCache.seen.lookup name) ∧ ∀ copy, s.reading name = some copy → Started copy

/-! ## What a pass does -/

/-- What a pass that has read `cr` may call. -/
def Proper (cr : ZfsPoolScrubJob) : ScrubCall → Prop
  | .getScrubJob _ => False
  | .createJob job => ¬ Started cr ∧ job.name = cr.name ∧ job.controller = some cr.metadata.uid
  | .updateStatus o => o.metadata = cr.metadata ∧ ¬ Terminal cr ∧ (Started cr → Started o)
  | _ => True

section Proper

open ZfsPoolScrubJobReconciler

variable {cr cr' : ZfsPoolScrubJob}

theorem ask_calls {P : ScrubCall → Prop} {e : ScrubCall} (he : P e) : (ask e).run.Calls P := by
  simp [ask, he]

theorem setPhase_proper {phase : ScrubPhase} (hmeta : cr'.metadata = cr.metadata)
    (hcr : ¬ Terminal cr)
    (hphase : Started cr → phase ≠ .pending) (msg : String) :
    (setPhase cr' phase msg).run.Calls (Proper cr) := by
  unfold setPhase
  split_ifs
  · simp
  · refine ask_calls ⟨hmeta, hcr, fun hstarted => ?_⟩
    have := hphase hstarted
    cases phase <;> simp_all [Started]

theorem finish_proper {phase : ScrubPhase} (hmeta : cr'.metadata = cr.metadata)
    (hcr : ¬ Terminal cr)
    (hphase : phase ≠ .pending) (msg : String) : (finish cr' phase msg).run.Calls (Proper cr) := by
  refine Proc.bind_calls (ask_calls trivial) fun now => ask_calls ⟨hmeta, hcr, fun _ => ?_⟩
  cases phase <;> simp_all [Started]

theorem syncConditions_proper (hmeta : cr'.metadata = cr.metadata) (hcr : ¬ Terminal cr) (job : Job)
    (conditions : List JobCondition) :
    (syncConditions cr' job conditions).run.Calls (Proper cr) := by
  induction conditions with
  | nil => exact setPhase_proper hmeta hcr (by simp) _
  | cons c rest ih =>
    unfold syncConditions
    split_ifs
    · exact ih
    · cases c.type with
      | complete => exact finish_proper hmeta hcr (by simp) _
      | other => exact ih
      | failed =>
        refine Proc.bind_calls
          (Proc.bind_calls (Proc.outcome_calls (ask_calls trivial)) fun pods => ?_)
          fun msg => finish_proper hmeta hcr (by simp) _
        cases pods with
        | error e => simp
        | ok containers =>
          simp only
          split <;> simp

theorem start_proper (hcr : ¬ Terminal cr) (hnot : ¬ Started cr) :
    (start cr).run.Calls (Proper cr) := by
  refine Proc.bind_calls (ask_calls trivial) fun template => ?_
  cases template with
  | none =>
    have hpending : (setPhase cr .pending "scrub template ConfigMap is missing or empty").run.Calls
        (Proper cr) :=
      setPhase_proper rfl hcr (fun h => absurd h hnot) _
    exact Proc.bind_calls hpending fun _ => by simp
  | some template =>
    refine Proc.bind_calls (ask_calls trivial) fun pools => ?_
    split
    · exact Proc.bind_calls (finish_proper rfl hcr (by simp) _) fun _ => by simp
    · refine Proc.bind_calls (Proc.outcome_calls (ask_calls ⟨hnot, rfl, rfl⟩)) fun created => ?_
      split
      · simp
      · exact Proc.bind_calls (finish_proper rfl hcr (by simp) _) fun _ => by simp
      · refine Proc.bind_calls ?_ fun _ => by simp
        apply setPhase_proper
        · rfl
        · exact hcr
        · simp

theorem reconcileCopy_proper (cr : ZfsPoolScrubJob) : (reconcileCopy cr).run.Calls (Proper cr) := by
  unfold reconcileCopy
  by_cases hterminal : cr.status.phase = some .succeeded ∨ cr.status.phase = some .failed
  · rw [if_pos hterminal]
    simp
  rw [if_neg hterminal]
  have hcr : ¬ Terminal cr := hterminal
  refine Proc.bind_calls (Proc.outcome_calls (ask_calls trivial)) fun found => ?_
  cases found with
  | error e =>
    by_cases he : e.isNotFound
    · by_cases hrunning : cr.status.phase = some .running
      · simp only [he, hrunning, if_true]
        exact Proc.bind_calls (finish_proper rfl hcr (by simp) _) fun _ => by simp
      · simp only [he, hrunning, if_true, if_false]
        refine start_proper hcr ?_
        rintro (h | h)
        · exact hrunning h
        · exact hcr h
    · simp [he]
  | ok job =>
    by_cases hown : job.controller ≠ some cr.metadata.uid
    · simp only [hown, if_true, not_false_eq_true, ne_eq]
      exact Proc.bind_calls (finish_proper rfl hcr (by simp) _) fun _ => by simp
    · simp only [hown, if_false]
      refine Proc.bind_calls ?_ fun _ => by simp
      apply syncConditions_proper
      · rfl
      · exact hcr

end Proper

/-! ## The invariant -/

/-- `x` is a copy, maybe an older one, of the scrub `name`. -/
def Copy (s : ScrubWorld) (name : String) (x : ZfsPoolScrubJob) : Prop :=
  ∃ cur, s.scrubs.lookup name = some cur ∧ x.name = name ∧ x.metadata.uid = cur.metadata.uid ∧
    x.metadata.resourceVersion ≤ cur.metadata.resourceVersion ∧
    (x.metadata.resourceVersion = cur.metadata.resourceVersion → x.status = cur.status) ∧
    (Started x → Started cur)

/-- Every pass from now on sees that the scrub was started. -/
def Noticed (s : ScrubWorld) (name : String) : Prop :=
  Shows (s.scrubCache.seen.lookup name) ∧ ∀ copy, s.reading name = some copy → Started copy

structure Inv (s : ScrubWorld) : Prop where
  held : ∀ name cur, s.scrubs.lookup name = some cur →
    cur.name = name ∧ cur.metadata.terminating = false ∧
      cur.metadata.resourceVersion ≤ s.scrubs.revision
  versions : ∀ name x, some x ∈ s.scrubCache.versions name → Copy s name x
  reading : ∀ name x, s.reading name = some x → Copy s name x
  /-- what the cache has shown as started it shows so for ever -/
  ordered : ∀ name, (s.scrubCache.versions name).Pairwise fun a b => Shows a → Shows b
  /-- a Job that was created is still there, or is not needed any more -/
  once : ∀ name uid, (name, uid) ∈ s.started → ∃ cur, s.scrubs.lookup name = some cur ∧
    cur.metadata.uid = uid ∧
    ((∃ job, s.jobs.lookup name = some job ∧ job.controller = some uid) ∨ Noticed s name)
  nodup : s.started.Nodup

namespace Inv

variable {s : ScrubWorld}

/-- The cache and the passes only know scrubs that exist. -/
theorem seen_copy (hs : Inv s) {name : String} {x : ZfsPoolScrubJob}
    (hx : s.scrubCache.seen.lookup name = some x) : Copy s name x :=
  hs.versions name x (by rw [Informer.versions, hx]; exact List.mem_cons_self)

/-- A write of one scrub that keeps its uid and does not forget that it was started. -/
theorem put (hs : Inv s) {name : String} {o : ZfsPoolScrubJob} (hname : o.name = name)
    (hterminating : o.metadata.terminating = false)
    (hcur : ∀ cur, s.scrubs.lookup name = some cur →
      o.metadata.uid = cur.metadata.uid ∧ (Started cur → Started o)) :
    Inv (s.writeScrubs name (s.scrubs.put name o)) := by
  set o' : ZfsPoolScrubJob :=
    { o with metadata := { o.metadata with resourceVersion := s.scrubs.revision + 1 } } with ho'
  have hself : (s.scrubs.put name o).lookup name = some o' := by
    rw [Store.lookup_put_self, if_neg (by simp [Object.released, hterminating])]
  have hother : ∀ n, n ≠ name → (s.scrubs.put name o).lookup n = s.scrubs.lookup n :=
    fun n hn => Store.lookup_put_of_ne _ _ hn
  have hwrite : s.writeScrubs name (s.scrubs.put name o) =
      { s with scrubs := s.scrubs.put name o, scrubCache :=
        s.scrubCache.notify name (some o') } := by
    simp [ScrubWorld.writeScrubs, hself]
  -- an older copy stays one
  have hcopy : ∀ n x, Copy s n x → Copy (s.writeScrubs name (s.scrubs.put name o)) n x := by
    intro n x ⟨cur, hlookup, hx, huid, hrv, hstatus, hstarted⟩
    rw [hwrite]
    by_cases hn : n = name
    · subst hn
      obtain ⟨huid', hstarted'⟩ := hcur cur hlookup
      have hle := (hs.held n cur hlookup).2.2
      refine ⟨o', hself, hx,
        huid.trans huid'.symm, ?_, fun heq => ?_, fun h => hstarted' (hstarted h)⟩
      · show _ ≤ s.scrubs.revision + 1
        omega
      · have : x.metadata.resourceVersion = s.scrubs.revision + 1 := heq
        omega
    · exact ⟨cur, by simpa only [hother n hn] using hlookup, hx, huid, hrv, hstatus, hstarted⟩
  have hnew : Copy (s.writeScrubs name (s.scrubs.put name o)) name o' := by
    rw [hwrite]
    exact ⟨o', hself, hname, rfl, le_rfl, fun _ => rfl, id⟩
  constructor
  · intro n cur hlookup
    rw [hwrite] at hlookup ⊢
    by_cases hn : n = name
    · subst hn
      obtain rfl : o' = cur := by simpa [hself] using hlookup
      exact ⟨hname, hterminating, le_rfl⟩
    · obtain ⟨h₁, h₂, h₃⟩ := hs.held n cur (by simpa only [hother n hn] using hlookup)
      exact ⟨h₁, h₂, h₃.trans (Nat.le_succ _)⟩
  · intro n x hx
    rw [hwrite] at hx
    rw [Informer.versions_notify] at hx
    split_ifs at hx with hn
    · subst hn
      rcases List.mem_append.mp hx with hx | hx
      · exact hcopy n x (hs.versions n x hx)
      · obtain rfl : x = o' := by simpa using hx
        exact hnew
    · exact hcopy n x (hs.versions n x hx)
  · intro n x hx
    rw [hwrite] at hx
    exact hcopy n x (hs.reading n x hx)
  · intro n
    rw [hwrite]
    show ((s.scrubCache.notify name (some o')).versions n).Pairwise _
    rw [Informer.versions_notify]
    split_ifs with hn
    · subst hn
      refine List.pairwise_append.mpr ⟨hs.ordered n, List.pairwise_singleton _ _, ?_⟩
      intro a ha b hb ⟨x, hax, hx⟩
      subst hax
      obtain ⟨cur, hlookup, _, _, _, _, hstarted⟩ := hs.versions n x ha
      exact ⟨o', by simpa using hb, (hcur cur hlookup).2 (hstarted hx)⟩
    · exact hs.ordered n
  · intro n uid hstarted
    rw [hwrite] at hstarted ⊢
    obtain ⟨cur, hlookup, huid, hjob⟩ := hs.once n uid hstarted
    by_cases hn : n = name
    · subst hn
      exact ⟨o', hself, (hcur cur hlookup).1.trans huid, hjob⟩
    · exact ⟨cur, by simpa only [hother n hn] using hlookup, huid, hjob⟩
  · rw [hwrite]
    exact hs.nodup

/-- A write of a Job that keeps its controller, or of one that was not there. -/
theorem writeJob (hs : Inv s) {name : String} {job : Option Job}
    (hjob : ∀ uid, (name, uid) ∈ s.started →
      (∃ j, s.jobs.lookup name = some j ∧ j.controller = some uid) →
      (∃ j, job = some j ∧ j.controller = some uid) ∨ Noticed s name) :
    Inv (s.writeJob name job) := by
  refine ⟨hs.held, hs.versions, hs.reading, hs.ordered, ?_, hs.nodup⟩
  intro n uid hstarted
  obtain ⟨cur, hlookup, huid, hold⟩ := hs.once n uid hstarted
  refine ⟨cur, hlookup, huid, ?_⟩
  rcases hold with hold | hold
  · by_cases hn : n = name
    · subst hn
      refine (hjob uid hstarted hold).imp_left ?_
      rintro ⟨j, rfl, hj⟩
      exact ⟨j, by simp [ScrubWorld.writeJob], hj⟩
    · obtain ⟨j, hj, hcontroller⟩ := hold
      refine .inl ⟨j, ?_, hcontroller⟩
      cases job <;> simpa [ScrubWorld.writeJob, hn] using hj
  · exact .inr hold

theorem deliverScrub (hs : Inv s) (name : String) :
    Inv { s with scrubCache := s.scrubCache.deliver name } := by
  refine ⟨hs.held, fun n x hx => ?_, hs.reading, fun n => ?_, fun n uid hstarted => ?_, hs.nodup⟩
  · exact hs.versions n x (Informer.versions_deliver.subset hx)
  · exact (hs.ordered n).sublist Informer.versions_deliver.sublist
  · obtain ⟨cur, hlookup, huid, hold⟩ := hs.once n uid hstarted
    refine ⟨cur, hlookup, huid, hold.imp_right fun hnoticed => ⟨?_, hnoticed.2⟩⟩
    by_cases hn : n = name
    · subst hn
      cases hpending : s.scrubCache.pending n with
      | nil =>
        show Shows ((s.scrubCache.deliver n).seen.lookup n)
        simpa [Informer.deliver, hpending] using hnoticed.1
      | cons v rest =>
        show Shows ((s.scrubCache.deliver n).seen.lookup n)
        rw [(Informer.seen_deliver hpending).1]
        have hordered := hs.ordered n
        rw [Informer.versions, hpending] at hordered
        exact (List.pairwise_cons.mp hordered).1 v List.mem_cons_self hnoticed.1
    · show Shows ((s.scrubCache.deliver name).seen.lookup n)
      rw [(Informer.deliver_of_ne hn).1]
      exact hnoticed.1

/-- A pass reads what the cache shows, or is over. -/
theorem read (hs : Inv s) (name : String) (copy : Option ZfsPoolScrubJob)
    (hcopy : ∀ x, copy = some x → s.scrubCache.seen.lookup name = some x) :
    Inv { s with reading := Function.update s.reading name copy } := by
  have hreading : ∀ n x, Function.update s.reading name copy n = some x →
      s.scrubCache.seen.lookup n = some x ∨ s.reading n = some x := by
    intro n x hx
    by_cases hn : n = name
    · subst hn
      exact .inl (hcopy x (by simpa using hx))
    · exact .inr (by simpa [hn] using hx)
  refine ⟨hs.held, hs.versions, fun n x hx => ?_, hs.ordered, fun n uid hstarted => ?_, hs.nodup⟩
  · rcases hreading n x hx with h | h
    · exact hs.seen_copy h
    · exact hs.reading n x h
  · obtain ⟨cur, hlookup, huid, hold⟩ := hs.once n uid hstarted
    refine ⟨cur, hlookup, huid, hold.imp_right fun hnoticed => ⟨hnoticed.1, fun x hx => ?_⟩⟩
    rcases hreading n x hx with h | h
    · obtain ⟨y, hy, hstarted⟩ := hnoticed.1
      rw [h] at hy
      exact Option.some.inj hy ▸ hstarted
    · exact hnoticed.2 x h

/-- The Job of a scrub that has not been started, when no Job of that name exists. -/
theorem createJob (hs : Inv s) {cr : ZfsPoolScrubJob} {job : Job}
    (hcr : s.reading job.name = some cr)
    (hnot : ¬ Started cr) (hcontroller : job.controller = some cr.metadata.uid)
    (hfree : s.jobs.lookup job.name = none) :
    Inv { s.writeJob job.name (some job) with
      started := (job.controller.map fun uid => (job.name, uid)).toList ++ s.started } := by
  obtain ⟨cur, hlookup, _, huid, _⟩ := hs.reading _ cr hcr
  have hw : Inv (s.writeJob job.name (some job)) :=
    hs.writeJob fun uid _ ⟨j, hj, _⟩ => by simp [hfree] at hj
  -- the scrub of a Job that was created before is known as started, or its Job is in the way
  have hnew : (job.name, cr.metadata.uid) ∉ s.started := by
    intro hmem
    obtain ⟨_, _, _, ⟨j, hj, _⟩ | hnoticed⟩ := hs.once _ _ hmem
    · simp [hfree] at hj
    · exact hnot (hnoticed.2 cr hcr)
  rw [hcontroller]
  refine ⟨hw.held, hw.versions, hw.reading, hw.ordered, fun n uid hmem => ?_, ?_⟩
  · rcases List.mem_cons.mp hmem with heq | hmem
    · obtain ⟨rfl, rfl⟩ := Prod.mk.inj heq
      exact ⟨cur, hlookup, huid.symm, .inl ⟨job, by simp [ScrubWorld.writeJob], hcontroller⟩⟩
    · exact hw.once n uid hmem
  · exact List.nodup_cons.mpr ⟨hnew, hs.nodup⟩

/-- A status write of a pass is refused, or was computed from what is there. -/
theorem updateStatus_cases (hs : Inv s) {t : String} {cr o : ZfsPoolScrubJob}
    (hcr : s.reading t = some cr) (ho : Proper cr (.updateStatus o)) :
    (s.scrubs.updateStatus o).2 = s.scrubs ∨ ∃ cur, s.scrubs.lookup o.name = some cur ∧
      ¬ Terminal cur ∧
      (Started cur → Started o) ∧
      (s.scrubs.updateStatus o).2 = s.scrubs.put o.name { cur with status := o.status } := by
  obtain ⟨hmeta, hterminal, hstarted⟩ := ho
  obtain ⟨cur, hlookup, hname, _, _, hstatus, _⟩ := hs.reading t cr hcr
  have honame : o.name = t := by rw [← hname, Object.name, Object.name, hmeta]
  rw [← honame] at hlookup
  by_cases hversion : cur.metadata.resourceVersion = o.metadata.resourceVersion
  · have hsame : cr.status = cur.status := hstatus (by rw [hversion, hmeta])
    refine .inr ⟨cur, hlookup, ?_, ?_, ?_⟩
    · simpa only [Terminal, hsame] using hterminal
    · simpa only [Started, hsame] using hstarted
    · simp [Store.updateStatus, hlookup, hversion]
  · refine .inl ?_
    simp [Store.updateStatus, hlookup, hversion]

theorem updateStatus (hs : Inv s) {t : String} {cr o : ZfsPoolScrubJob}
    (hcr : s.reading t = some cr)
    (ho : Proper cr (.updateStatus o)) :
    Inv (s.writeScrubs o.name (s.scrubs.updateStatus o).2) := by
  obtain hsame | ⟨cur, hlookup, _, hstarted, hput⟩ := hs.updateStatus_cases hcr ho
  · rw [hsame]
    simpa [ScrubWorld.writeScrubs] using hs
  · rw [hput]
    obtain ⟨hname, hterminating, _⟩ := hs.held _ cur hlookup
    refine hs.put hname hterminating fun cur' hlookup' => ?_
    obtain rfl : cur = cur' := by simpa [hlookup] using hlookup'
    exact ⟨rfl, hstarted⟩

/-- What happens by itself keeps the invariant, when Jobs go away only once all is settled. -/
theorem happens (hs : Inv s) {s' : ScrubWorld} (h : Happens Settled s s') : Inv s' := by
  cases h with
  | create name spec =>
    unfold Store.create
    split_ifs with hex
    · simpa [ScrubWorld.writeScrubs] using hs
    · refine hs.put rfl rfl fun cur hcur => ?_
      simp [hcur] at hex
  | edit cr spec current =>
    obtain ⟨e, he⟩ | ⟨cur, hcur, _, hupdate⟩ := s.scrubs.update_cases { cr with spec }
    · rw [he]
      simpa [ScrubWorld.writeScrubs] using hs
    · rw [hupdate]
      obtain rfl : cr = cur := Option.some.inj (current.symm.trans hcur)
      obtain ⟨_, hterminating, _⟩ := hs.held _ cr current
      refine hs.put rfl hterminating fun cur' hcur' => ?_
      obtain rfl : cr = cur' := Option.some.inj (current.symm.trans hcur')
      exact ⟨rfl, id⟩
  | deliverScrub name => exact hs.deliverScrub name
  | deliverJob name => exact ⟨hs.held, hs.versions, hs.reading, hs.ordered, hs.once, hs.nodup⟩
  | progress name job startTime conditions current =>
    refine hs.writeJob fun uid _ ⟨j, hj, hcontroller⟩ => .inl ⟨_, rfl, ?_⟩
    obtain rfl : job = j := Option.some.inj (current.symm.trans hj)
    exact hcontroller
  | other job foreign free =>
    exact hs.writeJob fun uid _ ⟨j, hj, _⟩ => by simp [free] at hj
  | delete name may =>
    refine hs.writeJob fun uid hmem ⟨j, hj, hcontroller⟩ => .inr ?_
    obtain ⟨cur, hlookup, huid, _⟩ := hs.once name uid hmem
    exact may j cur hj hlookup (by rw [hcontroller, huid])
  | cluster template pools pods clock =>
    exact ⟨hs.held, hs.versions, hs.reading, hs.ordered, hs.once, hs.nodup⟩

end Inv

/-! ## Every run -/

/-- What a call of the pass for `t` is: the read of the scrub, or one that suits what was read. -/
def Suits (t : String) (e : ScrubCall) (s : ScrubWorld) : Prop :=
  e = .getScrubJob t ∨ ∃ cr, s.reading t = some cr ∧ Proper cr e

theorem Inv.handle {s : ScrubWorld} (hs : Inv s) {t : String} {e : ScrubCall} (he : Suits t e s) :
    Inv (ScrubWorld.handle t e s).2 := by
  rcases he with rfl | ⟨cr, hcr, he⟩
  · cases hseen : s.scrubCache.seen.lookup t with
    | none => simpa [ScrubWorld.handle, hseen] using hs
    | some x =>
      have hread := hs.read t (some x) (by simp [hseen])
      simpa [ScrubWorld.handle, hseen] using hread
  · cases e with
    | getScrubJob name => exact he.elim
    | getJob name | getTemplate | listPools | listPods jobName | now => exact hs
    | updateStatus o => exact hs.updateStatus hcr he
    | createJob job =>
      obtain ⟨hnot, hname, hcontroller⟩ := he
      have htask : job.name = t := by
        obtain ⟨_, _, hname', _⟩ := hs.reading t cr hcr
        rw [hname, hname']
      cases hjob : s.jobs.lookup job.name with
      | some j => simpa [ScrubWorld.handle, hjob] using hs
      | none =>
        have hcreate := hs.createJob (htask ▸ hcr) hnot hcontroller hjob
        simpa [ScrubWorld.handle, hjob] using hcreate

/-- A call changes what no other pass has read. -/
theorem handle_reading {t u : String} (hu : u ≠ t) (e : ScrubCall) (s : ScrubWorld) :
    (ScrubWorld.handle t e s).2.reading u = s.reading u := by
  cases e with
  | getScrubJob name =>
    cases h : s.scrubCache.seen.lookup name <;> simp [ScrubWorld.handle, h, hu]
  | createJob job =>
    cases h : s.jobs.lookup job.name <;> simp [ScrubWorld.handle, h, ScrubWorld.writeJob]
  | updateStatus o =>
    simp only [ScrubWorld.handle, ScrubWorld.writeScrubs]
    split_ifs <;> rfl
  | getJob name | getTemplate | listPools | listPods jobName | now => rfl

/-- What a pass has read it has until it is over. -/
theorem handle_reading_self {t : String} {cr : ZfsPoolScrubJob} {e : ScrubCall} (he : Proper cr e)
    (s : ScrubWorld) : (ScrubWorld.handle t e s).2.reading t = s.reading t := by
  cases e with
  | getScrubJob name => exact he.elim
  | createJob job =>
    cases h : s.jobs.lookup job.name <;> simp [ScrubWorld.handle, h, ScrubWorld.writeJob]
  | updateStatus o =>
    simp only [ScrubWorld.handle, ScrubWorld.writeScrubs]
    split_ifs <;> rfl
  | getJob name | getTemplate | listPools | listPods jobName | now => rfl

theorem happens_reading {allowed : ScrubWorld → String → Prop} {s s' : ScrubWorld}
    (h : Happens allowed s s') : s'.reading = s.reading := by
  cases h <;> first
    | rfl
    | (simp only [ScrubWorld.writeScrubs]; split_ifs <;> rfl)

/-- Every call of a pass suits what it has read. -/
theorem reconcile_wp (t : String) (s : ScrubWorld) :
    ((ZfsPoolScrubJobReconciler.reconcile t).run).wp (ScrubWorld.handle t)
      (scrubSystem Settled).fails
      (fun _ s s' => s'.reading t = s.reading t) (fun e s _ => Suits t e s)
        (fun _ _ => True) s := by
  unfold ZfsPoolScrubJobReconciler.reconcile
  refine Proc.outcome_ask_wp fun s _ => ⟨.inl rfl, ?_, ?_⟩
  · cases hseen : s.scrubCache.seen.lookup t with
    | none => simp [ScrubWorld.handle, hseen, Err.isNotFound, Program.wp]
    | some cr =>
      simp only [ScrubWorld.handle, hseen]
      have hrest : ∀ s : ScrubWorld, s.reading t = some cr →
          (ZfsPoolScrubJobReconciler.reconcileCopy cr).run.wp
          (ScrubWorld.handle t) (scrubSystem Settled).fails
            (fun _ s s' => s'.reading t = s.reading t)
          (fun e s _ => Suits t e s) (fun _ s => s.reading t = some cr) s := by
        intro s hs
        refine (reconcileCopy_proper cr).wp ?_ ?_ hs
        · intro e s s' _ hs hs'
          exact hs'.trans hs
        · intro e s he hs
          exact ⟨.inr ⟨cr, hs, he⟩, (handle_reading_self he s).trans hs⟩
      exact Program.wp_mono (fun _ _ _ => trivial) (hrest _ (by simp))
  · rintro r ⟨msg, rfl⟩
    simp [Err.isNotFound, Program.wp]

/-- The outline of the proof that a scrub gets one Job. -/
def outline : Outline (scrubSystem Settled) (fun _ _ _ => True) where
  inv := Inv
  rely t _ s s' := s'.reading t = s.reading t
  guar t e s _ := Suits t e s
  post _ _ _ := True
  refl _ _ _ _ := rfl
  trans _ _ _ _ _ h h' := h'.trans h
  starts _ t s _ _ _ := reconcile_wp t s
  call_inv _ _ _ _ hs _ _ _ he := hs.handle he
  call_rely c i t e _ ht _ _ _ j t' _ hj ht' _ := by
    obtain rfl : i = t := ht
    obtain rfl : j = t' := ht'
    exact handle_reading hj e c.shared
  finish_inv t _ s hs _ := hs.read t none (by simp)
  finish_rely i t _ s _ ht _ j t' _ hj ht' := by
    obtain rfl : i = t := ht
    obtain rfl : j = t' := ht'
    exact Function.update_of_ne hj _ _
  env_inv _ _ hs h := hs.happens h
  env_rely _ _ _ h t _ := congrFun (happens_reading h) t

/-- There are no scrubs yet. -/
structure Fresh (s : ScrubWorld) : Prop where
  scrubs : ∀ name, s.scrubs.lookup name = none
  cache : ∀ name, s.scrubCache.versions name = [none]
  reading : ∀ name, s.reading name = none
  started : s.started = []

theorem Fresh.inv {s : ScrubWorld} (hs : Fresh s) : Inv s where
  held name cur h := by simp [hs.scrubs] at h
  versions name x h := by simp [hs.cache] at h
  reading name x h := by simp [hs.reading] at h
  ordered name := by simp [hs.cache]
  once name uid h := by simp [hs.started] at h
  nodup := by simp [hs.started]

/-- The phase of a scrub that is over is the same in `s'`. -/
def KeepsTerminal (s s' : ScrubWorld) : Prop :=
  ∀ name cr, s.scrubs.lookup name = some cr → Terminal cr →
    ∃ cr', s'.scrubs.lookup name = some cr' ∧ cr'.status.phase = cr.status.phase

theorem KeepsTerminal.of_eq {s s' : ScrubWorld} (h : s'.scrubs = s.scrubs) : KeepsTerminal s s' :=
  fun _ cr hcr _ => ⟨cr, h ▸ hcr, rfl⟩

/-- A write that changes no phase that is terminal. -/
theorem KeepsTerminal.put {s : ScrubWorld} {name : String} {o cur : ZfsPoolScrubJob}
    (hcur : s.scrubs.lookup name = some cur) (hterminating : o.metadata.terminating = false)
    (hphase : Terminal cur → o.status.phase = cur.status.phase) :
    KeepsTerminal s (s.writeScrubs name (s.scrubs.put name o)) := by
  have hwrite : (s.writeScrubs name (s.scrubs.put name o)).scrubs = s.scrubs.put name o := by
    simp [ScrubWorld.writeScrubs]
  intro n cr hcr hterminal
  rw [hwrite]
  by_cases hn : n = name
  · subst hn
    obtain rfl : cur = cr := Option.some.inj (hcur.symm.trans hcr)
    rw [Store.lookup_put_self, if_neg (by simp [Object.released, hterminating])]
    exact ⟨_, rfl, hphase hterminal⟩
  · rw [Store.lookup_put_of_ne _ _ hn]
    exact ⟨cr, hcr, rfl⟩

theorem Inv.handle_keepsTerminal {s : ScrubWorld} (hs : Inv s) {t : String} {e : ScrubCall}
    (he : Suits t e s) : KeepsTerminal s (ScrubWorld.handle t e s).2 := by
  cases e with
  | getScrubJob name =>
    apply KeepsTerminal.of_eq
    cases h : s.scrubCache.seen.lookup name <;> simp [ScrubWorld.handle, h]
  | createJob job =>
    apply KeepsTerminal.of_eq
    cases h : s.jobs.lookup job.name <;> simp [ScrubWorld.handle, h, ScrubWorld.writeJob]
  | updateStatus o =>
    obtain ⟨cr, hcr, he⟩ : ∃ cr, s.reading t = some cr ∧ Proper cr (.updateStatus o) := by
      rcases he with h | h
      · cases h
      · exact h
    obtain hsame | ⟨cur, hlookup, hterminal, _, hput⟩ := hs.updateStatus_cases hcr he
    · apply KeepsTerminal.of_eq
      simp [ScrubWorld.handle, ScrubWorld.writeScrubs, hsame]
    · show KeepsTerminal s (s.writeScrubs o.name (s.scrubs.updateStatus o).2)
      rw [hput]
      exact .put hlookup (hs.held _ cur hlookup).2.1 fun h => absurd h hterminal
  | getJob name | getTemplate | listPools | listPods jobName | now => exact .of_eq rfl

theorem Inv.happens_keepsTerminal {allowed : ScrubWorld → String → Prop}
    {s s' : ScrubWorld} (hs : Inv s)
    (h : Happens allowed s s') : KeepsTerminal s s' := by
  cases h with
  | create name spec =>
    unfold Store.create
    split_ifs with hex
    · exact .of_eq (by simp [ScrubWorld.writeScrubs])
    · intro n cr hcr hterminal
      have hn : n ≠ name := by
        rintro rfl
        simp [hcr] at hex
      refine ⟨cr, ?_, rfl⟩
      simpa [ScrubWorld.writeScrubs, Store.lookup_put_of_ne _ _ hn] using hcr
  | edit cr spec current =>
    obtain ⟨e, he⟩ | ⟨cur, hcur, _, hupdate⟩ := s.scrubs.update_cases { cr with spec }
    · rw [he]
      exact .of_eq (by simp [ScrubWorld.writeScrubs])
    · rw [hupdate]
      exact .put hcur (hs.held _ cur hcur).2.1 fun _ => rfl
  | deliverScrub name | deliverJob name | progress name job startTime conditions current
  | other job foreign free | delete name may | cluster template pools pods clock => exact .of_eq rfl

/-- No step changes a phase that is terminal. -/
theorem step_keepsTerminal
    {c c' : Config ScrubWorld String String ScrubCall ScrubCall.Ret (Except Err Requeue)}
    (hc : outline.Holds c) (hstep : Step (scrubSystem Settled) (fun _ _ _ => True) c c') :
    KeepsTerminal c.shared c'.shared := by
  -- the return of a pass changes no scrub
  have hadvance :
      ∀ (c : Config ScrubWorld String String ScrubCall ScrubCall.Ret (Except Err Requeue)) i t p,
      ((scrubSystem Settled).advance c i t p).shared.scrubs = c.shared.scrubs := by
    intro c i t p
    cases p <;> rfl
  cases hstep with
  | start idle takes starts => exact .of_eq (hadvance _ _ _ _)
  | @call i t e k waits allowed =>
    have hsuits : Suits t e c.shared := (hc.safe i t _ waits _ rfl).1
    intro name cr hcr hterminal
    rw [hadvance]
    exact hc.inv.handle_keepsTerminal hsuits name cr hcr hterminal
  | fail waits fails => exact .of_eq (hadvance _ _ _ _)
  | env change => exact hc.inv.happens_keepsTerminal change

/-- Over any run in which Jobs go away only once their scrubs are settled, every scrub gets one Job,
and a scrub that is over stays as it is. -/
theorem one_job_per_scrub {s : ScrubWorld} (hs : Fresh s)
    {c : Config ScrubWorld String String ScrubCall ScrubCall.Ret (Except Err Requeue)}
    (hc : Reach (scrubSystem Settled) (fun _ _ _ => True) s c) :
    c.shared.started.Nodup ∧
      ∀ c', Step (scrubSystem Settled) (fun _ _ _ => True) c c' →
        KeepsTerminal c.shared c'.shared := by
  have hholds : outline.Holds c := outline.holds_of_reach hs.inv hc
  exact ⟨hholds.inv.nodup, fun c' hstep => step_keepsTerminal hholds hstep⟩

/-! ## Runs of one scrub -/

/-- `tank` is imported on `node-a`, and there is a template. -/
def ready : ScrubWorld where
  scrubs := .empty
  jobs := FinMap.empty
  scrubCache := .synced FinMap.empty
  jobCache := .synced FinMap.empty
  template := some { containers := [⟨"scrub", [], false⟩] }
  pools := [{
    metadata := { name := "zpool-1" }
    spec := ()
    status := { guid := "1", poolName := "tank", currentNode := "node-a", health := .online } }]
  pods _ := []
  clock := 100
  reading _ := none
  started := []

theorem ready_fresh : Fresh ready where
  scrubs _ := rfl
  cache _ := rfl
  reading _ := rfl
  started := rfl

/-- The scrub is created and the cache shows it; then a pass up to the creation of the Job. -/
def startNightly : List (Move ScrubWorld String String) :=
  [.change fun s => s.writeScrubs "nightly"
    (s.scrubs.create s.clock "nightly" { poolGUID := "1" } {}).2,
    .change fun s => { s with scrubCache := s.scrubCache.deliver "nightly" },
    .begin "nightly" "nightly", .call "nightly", .call "nightly", .call "nightly", .call "nightly",
    .call "nightly"]

/-- The Job completes. -/
def complete (s : ScrubWorld) : ScrubWorld :=
  match s.jobs.lookup "nightly" with
  | some job => s.writeJob "nightly" (some { job with conditions := [⟨.complete, true, "", ""⟩] })
  | none => s

/-- The Job goes away, if it may. -/
def expire (allowed : ScrubWorld → String → Bool) (s : ScrubWorld) : ScrubWorld :=
  if allowed s "nightly" then s.writeJob "nightly" none else s

theorem happens_refl (allowed : ScrubWorld → String → Prop) (s : ScrubWorld) :
    Happens allowed s s :=
  .cluster s s.template s.pools s.pods s.clock

/-- The Job completes and goes away, and the cache shows both. -/
def afterwards (allowed : ScrubWorld → String → Bool) : List (Move ScrubWorld String String) :=
  [.change complete, .change fun s => { s with scrubCache := s.scrubCache.deliver "nightly" },
    .change (expire allowed),
    .change fun s => { s with jobCache := s.jobCache.deliver "nightly" },
    .change fun s => { s with jobCache := s.jobCache.deliver "nightly" },
    .change fun s => { s with jobCache := s.jobCache.deliver "nightly" },
    .begin "nightly" "nightly", .call "nightly", .call "nightly", .call "nightly", .call "nightly",
    .call "nightly"]

variable {allowed : ScrubWorld → String → Prop}

theorem startNightly_legal : ∀ m ∈ startNightly, m.Legal (scrubSystem allowed) := by
  simp only [startNightly, List.forall_mem_cons, List.not_mem_nil, false_imp_iff,
    implies_true, and_true]
  exact ⟨fun s => .create s _ _, fun s => .deliverScrub s _, ⟨rfl, fun _ => trivial⟩,
    trivial, trivial,
    trivial, trivial, trivial⟩

theorem afterwards_legal {may : ScrubWorld → String → Bool}
    (hmay : ∀ s name, may s name → allowed s name) :
    ∀ m ∈ afterwards may, m.Legal (scrubSystem allowed) := by
  have hcomplete : ∀ s, Happens allowed s (complete s) := by
    intro s
    unfold complete
    split
    case h_1 job hjob => exact .progress s _ job job.startTime _ hjob
    case h_2 => exact happens_refl allowed s
  have hexpire : ∀ s, Happens allowed s (expire may s) := by
    intro s
    unfold expire
    split_ifs with h
    · exact .delete s _ (hmay s _ h)
    · exact happens_refl allowed s
  simp only [afterwards, List.forall_mem_cons, List.not_mem_nil, false_imp_iff,
    implies_true, and_true]
  exact ⟨hcomplete, fun s => .deliverScrub s _, hexpire, fun s => .deliverJob s _,
    fun s => .deliverJob s _,
    fun s => .deliverJob s _, ⟨rfl, fun _ => trivial⟩, trivial, trivial, trivial, trivial, trivial⟩

/-- No pass is under way, and the cache shows the scrub as started. -/
def idleStarted (s : ScrubWorld) (name : String) : Bool :=
  (s.reading name).isNone && ((s.scrubCache.seen.lookup name).any fun cr => decide (Started cr))

theorem idleStarted_settled (s : ScrubWorld) (name : String) (h : idleStarted s name) :
    Settled s name := by
  intro job cr _ _ _
  simp only [idleStarted, Bool.and_eq_true, Option.isNone_iff_eq_none, Option.any_eq_true,
    decide_eq_true_eq] at h
  obtain ⟨hidle, x, hx, hstarted⟩ := h
  exact ⟨⟨x, hx, hstarted⟩, by simp [hidle]⟩

/-- The Job has finished. -/
def finished (s : ScrubWorld) (name : String) : Bool :=
  (s.jobs.lookup name).any fun job => job.conditions.any fun c => c.status && c.type != .other

/-- The scrub is recorded as running, the Job completes and goes away: one Job, and a
failed scrub. -/
theorem one_job_per_scrub_nightly :
    let c := (startNightly ++ [Move.call "nightly"] ++ afterwards idleStarted).foldl
      ((scrubSystem Settled).make fun _ _ _ => True) ⟨ready, fun _ => none⟩
    (c.shared.started = [("nightly", 1)] ∧
      (c.shared.scrubs.lookup "nightly").any fun cr => decide (Terminal cr)) ∧
    c.shared.started.Nodup ∧
      ∀ c', Step (scrubSystem Settled) (fun _ _ _ => True) c c' →
        KeepsTerminal c.shared c'.shared := by
  intro c
  refine ⟨by decide +kernel, one_job_per_scrub ready_fresh (Reach.start.play _ fun m hm => ?_)⟩
  simp only [List.mem_append, List.mem_singleton] at hm
  rcases hm with (hm | rfl) | hm
  · exact startNightly_legal m hm
  · trivial
  · exact afterwards_legal idleStarted_settled m hm

/-- The status update fails, the Job completes and is removed: the next pass starts another one. -/
theorem second_job_started :
    ¬ ∀ (s : ScrubWorld)
      (c : Config ScrubWorld String String ScrubCall ScrubCall.Ret (Except Err Requeue)),
      Fresh s → Reach (scrubSystem fun s name => finished s name = true) (fun _ _ _ => True) s c →
      c.shared.started.Nodup := by
  intro hclaim
  let S := scrubSystem fun s name => finished s name = true
  let c₁ := startNightly.foldl (S.make fun _ _ _ => True) ⟨ready, fun _ => none⟩
  let c₂ := S.lose c₁ "nightly" fun e => .error (.other "timeout")
  let c₃ := (afterwards finished).foldl (S.make fun _ _ _ => True) c₂
  have h₁ : Reach S (fun _ _ _ => True) ready c₁ := Reach.start.play _ startNightly_legal
  have h₂ : Reach S (fun _ _ _ => True) ready c₂ := h₁.lose "nightly" fun e => ⟨"timeout", rfl⟩
  have h₃ : Reach S (fun _ _ _ => True) ready c₃ := h₂.play _ (afterwards_legal fun _ _ h => h)
  have hstarted : c₃.shared.started = [("nightly", 1), ("nightly", 1)] := by decide +kernel
  have := hclaim ready c₃ ready_fresh h₃
  simp [hstarted] at this

end SimpleZfsCsi.Scrub
