import SimpleZfsCsi.Library.Decimal
import SimpleZfsCsi.Scrub.Controller

/-!
# What a scrub reports

The program of a scrub Job runs `zpool scrub -w`, reads `zpool status` and exits with 0 if the
report is good. The report looks at three lines of the status. It takes a scan line without a clause
about errors for a good one, and it does not tell a scrub from a resilver.
-/

namespace SimpleZfsCsi.Scrub

open Library Api Program Text

/-! ## The report -/

structure ScrubReport where
  state : String := ""
  scan : String := ""
  errors : String := ""
  ok : Bool := false
  deriving DecidableEq, Repr

/-- What a line says after its label. -/
def lineValue (label line : String) : String := trimSpace (trimStart line label)

/-- One line of a status. -/
def readLine (r : ScrubReport) (raw : String) : ScrubReport :=
  let line := trimSpace raw
  if startsWith line "state:" then { r with state := lineValue "state:" line }
  else if startsWith line "scan:" then { r with scan := lineValue "scan:" line }
  else if startsWith line "errors:" then { r with errors := lineValue "errors:" line }
  else r

/-- `strings.EqualFold`, on ASCII letters. -/
def equalFold (s t : String) : Bool := s.toList.map Char.toLower = t.toList.map Char.toLower

def stateOK (state : String) : Bool := equalFold state "ONLINE"

def errorsOK (errors : String) : Bool := contains (toLower errors) "no known data errors"

def scanOK (scan : String) : Bool := !contains scan "with " || contains scan "with 0 errors"

/-- `ParseScrubReport`. -/
def parseScrubReport (status : String) : ScrubReport :=
  let r := (split '\n' status).foldl readLine {}
  { r with ok := stateOK r.state && errorsOK r.errors && scanOK r.scan }

/-! ## The program -/

/-- The program runs `zpool` with arguments. -/
structure ZpoolCall where
  args : List String

abbrev ZpoolCall.Ret (_ : ZpoolCall) : Type := Except Err String

abbrev ZpoolProc := Proc ZpoolCall ZpoolCall.Ret Err

def zpool (args : List String) : ZpoolProc String := Proc.ask (V := fun _ => String) ⟨args⟩ id

/-- `strings.Fields`. -/
def fields (s : String) : List String :=
  ((s.toList.splitOnP isSpace).filter (· ≠ [])).map String.ofList

/-- `strings.TrimRight(s, "\n")`. -/
def trimNewlines (s : String) : String :=
  String.ofList (s.toList.reverse.dropWhile (· == '\n')).reverse

/-- The name of the pool with a GUID. -/
def findGUID (guid : String) : List String → Option String
  | [] => none
  | line :: rest =>
    match fields (trimSpace line) with
    | name :: found :: _ => if found = guid then some name else findGUID guid rest
    | _ => findGUID guid rest

/-- `PoolNameByGUID`. -/
def poolNameByGUID (guid : String) : ZpoolProc String := do
  let out ← zpool ["list", "-H", "-o", "name,guid"]
  match findGUID guid (split '\n' (trimNewlines out)) with
  | some name => return name
  | none => throw (.other ("no pool with GUID " ++ Err.quoted guid ++ " is imported on this node"))

/-- `main` up to the status of the pool. -/
def readStatus (poolGUID : String) : ZpoolProc String := do
  let pool ← poolNameByGUID poolGUID
  let _ ← zpool ["scrub", "-w", pool]
  zpool ["status", pool]

/-- `main`: the exit code. -/
def scrubMain (poolGUID : String) : Program ZpoolCall ZpoolCall.Ret Nat :=
  if poolGUID = "" then .pure 2
  else (readStatus poolGUID).run.bind fun
    | .error _ => .pure 1
    | .ok status => .pure (if (parseScrubReport status).ok then 0 else 1)

/-! ## What the lines say -/

/-- The value of the last line with a label. -/
def lastValue (label : String) (lines : List String) : String :=
  ((lines.map trimSpace).reverse.find? (startsWith · label)).elim "" (lineValue label)

theorem lastValue_concat (label : String) (lines : List String) (raw : String) :
    lastValue label (lines ++ [raw]) =
      if startsWith (trimSpace raw) label then lineValue label (trimSpace raw) else
        lastValue label lines := by
  simp only [lastValue, List.map_append, List.map_cons, List.map_nil, List.reverse_append,
    List.reverse_cons, List.reverse_nil, List.nil_append, List.singleton_append, List.find?_cons]
  split_ifs with h <;> simp [h]

/-- A line has one label. -/
theorem startsWith_exclusive {line a b : String} (ha : startsWith line a = true)
    (hab : a.toList.isPrefixOf b.toList = false)
    (hba : b.toList.isPrefixOf a.toList = false) : startsWith line b = false := by
  rw [Bool.eq_false_iff]
  intro hb
  rw [startsWith, List.isPrefixOf_iff_prefix] at ha hb
  rcases List.prefix_or_prefix_of_prefix ha hb with h | h
  · rw [List.isPrefixOf_iff_prefix.mpr h] at hab
    cases hab
  · rw [List.isPrefixOf_iff_prefix.mpr h] at hba
    cases hba

/-- The report holds what the last lines say. -/
theorem foldl_readLine (lines : List String) :
    (lines.foldl readLine {}).state = lastValue "state:" lines ∧
    (lines.foldl readLine {}).scan = lastValue "scan:" lines ∧
    (lines.foldl readLine {}).errors = lastValue "errors:" lines := by
  induction lines using List.reverseRecOn with
  | nil => exact ⟨rfl, rfl, rfl⟩
  | append_singleton lines raw ih =>
    rw [List.foldl_append, List.foldl_cons, List.foldl_nil, lastValue_concat, lastValue_concat,
      lastValue_concat]
    generalize lines.foldl readLine {} = r at ih
    unfold readLine
    dsimp only
    by_cases hstate : startsWith (trimSpace raw) "state:" = true
    · have hscan : startsWith (trimSpace raw) "scan:" = false :=
        startsWith_exclusive hstate (by decide) (by decide)
      have herrors : startsWith (trimSpace raw) "errors:" = false :=
        startsWith_exclusive hstate (by decide) (by decide)
      simp [hstate, hscan, herrors, ih]
    by_cases hscan : startsWith (trimSpace raw) "scan:" = true
    · have herrors : startsWith (trimSpace raw) "errors:" = false :=
        startsWith_exclusive hscan (by decide) (by decide)
      simp [hstate, hscan, herrors, ih]
    by_cases herrors : startsWith (trimSpace raw) "errors:" = true
    · simp [hstate, hscan, herrors, ih]
    · simp [hstate, hscan, herrors, ih]

def stateLine (status : String) : String := lastValue "state:" (split '\n' status)

def scanLine (status : String) : String := lastValue "scan:" (split '\n' status)

def errorsLine (status : String) : String := lastValue "errors:" (split '\n' status)

theorem parseScrubReport_ok (status : String) : (parseScrubReport status).ok =
    (stateOK (stateLine status) && errorsOK (errorsLine status) && scanOK (scanLine status)) := by
  obtain ⟨hstate, hscan, herrors⟩ := foldl_readLine (split '\n' status)
  unfold parseScrubReport stateLine scanLine errorsLine
  dsimp only
  rw [hstate, hscan, herrors]

/-! ## A scrub that completed cleanly -/

/-- The scan line of a scrub that finished: its first clause about errors is that there
were none. -/
def FinishedCleanly (scan : String) : Prop :=
  ∃ amount date, scan = "scrub repaired " ++ amount ++ " with 0 errors" ++ date ∧
    contains amount "with " = false

/-- The text is the phrase, whatever the case of its letters. -/
def Spells (text phrase : String) : Prop := toLower text = phrase

/-- The phrase is in the text. -/
def Mentions (text phrase : String) : Prop :=
  ∃ before middle after, text = before ++ middle ++ after ∧ Spells middle phrase

/-- The pool is online, its last scan was a scrub that finished with no errors, and there are no
known data errors. -/
structure Clean (status : String) : Prop where
  state : Spells (stateLine status) "online"
  scan : FinishedCleanly (scanLine status)
  errors : Mentions (errorsLine status) "no known data errors"

/-- A state that the report accepts is ONLINE. -/
theorem spells_of_stateOK {state : String} (h : stateOK state = true) : Spells state "online" := by
  have hmap : state.toList.map Char.toLower = "online".toList :=
    (of_decide_eq_true h).trans (by decide +kernel)
  have hlower : state.toList.map lowerChar = state.toList.map Char.toLower := by
    refine List.map_congr_left fun c hc => ?_
    have hletter : c.toLower ∈ "online".toList := hmap ▸ List.mem_map_of_mem hc
    unfold lowerChar
    split_ifs with hkelvin hdotted
    · subst hkelvin
      exact absurd hletter (by decide +kernel)
    · subst hdotted
      exact absurd hletter (by decide +kernel)
    · rfl
  unfold Spells toLower
  rw [hlower, hmap]
  decide +kernel

theorem mentions_of_contains {text phrase : String} (h : contains (toLower text) phrase = true) :
    Mentions text phrase := by
  obtain ⟨before, after, hinfix⟩ := of_decide_eq_true h
  have hmap : text.toList.map lowerChar = before ++ phrase.toList ++ after :=
    String.toList_ofList.symm.trans hinfix.symm
  obtain ⟨start, rest, hsplit, hstart, -⟩ := List.map_eq_append_iff.mp hmap
  obtain ⟨first, middle, rfl, -, hmiddle⟩ := List.map_eq_append_iff.mp hstart
  refine ⟨String.ofList first, String.ofList middle, String.ofList rest, ?_, ?_⟩
  · rw [← String.ofList_append, ← String.ofList_append, ← hsplit, String.ofList_toList]
  · rw [Spells, toLower, String.toList_ofList, hmiddle, String.ofList_toList]

theorem contains_middle (a part b : String) : contains (a ++ part ++ b) part = true := by
  refine @decide_eq_true _ _ ⟨a.toList, b.toList, ?_⟩
  rw [String.toList_append, String.toList_append]

theorem FinishedCleanly.contains {scan : String} (h : FinishedCleanly scan) :
    contains scan "with 0 errors" = true := by
  obtain ⟨amount, date, rfl, -⟩ := h
  have hclause : " with 0 errors" = " " ++ "with 0 errors" := rfl
  rw [hclause, ← String.append_assoc]
  exact contains_middle _ _ _

/-- A clause that there were no errors is one about errors. -/
theorem contains_of_contains {scan : String} (h : contains scan "with 0 errors" = true) :
    contains scan "with " = true := by
  have hpart : "with ".toList <:+: "with 0 errors".toList :=
    ⟨[], "0 errors".toList, by decide +kernel⟩
  exact decide_eq_true (hpart.trans (of_decide_eq_true h))

/-- The program exits with 0 after it has read the status. -/
def ExitsOK (status guid : String) : Prop :=
  ∃ (σ : Type) (h : (e : ZpoolCall) → σ → e.Ret × σ) (s : σ),
    (∀ pool s text, (h ⟨["status", pool]⟩ s).1 = .ok text → text = status) ∧
      ((scrubMain guid).exec h s).1 = 0

theorem readStatus_ensures {σ : Type} {h : (e : ZpoolCall) → σ → e.Ret × σ} {s : σ}
    {status : String}
    (hstatus : ∀ pool s text, (h ⟨["status", pool]⟩ s).1 = .ok text → text = status)
    (guid : String) :
    (readStatus guid).Ensures h s fun text _ => text = status := by
  refine .bind fun pool t _ => .bind fun _ u _ => ?_
  exact Proc.Ensures.ask fun text htext => hstatus pool u text htext

theorem ExitsOK.report {status guid : String} (h : ExitsOK status guid) :
    (parseScrubReport status).ok = true := by
  obtain ⟨σ, h, s, hstatus, hexit⟩ := h
  unfold scrubMain at hexit
  split_ifs at hexit
  · cases hexit
  have hread := readStatus_ensures (s := s) hstatus guid
  rw [Program.exec_bind] at hexit
  rcases hr : (readStatus guid).run.exec h s with ⟨r, t⟩
  rw [hr] at hexit
  cases r with
  | error e => cases hexit
  | ok text =>
    obtain rfl := hread text t hr
    by_contra hbad
    simp [hbad] at hexit

/-! ## The Job -/

/-- The Job is complete. -/
def Completed (job : Job) : Prop := ∃ c ∈ job.conditions, c.status = true ∧ c.type = .complete

/-- A call that makes a scrub succeeded. -/
def Succeeds : ScrubCall → Prop
  | .updateStatus o => o.status.phase = some .succeeded
  | _ => False

section Job

open ZfsPoolScrubJobReconciler

variable {K : Prop} (cr : ZfsPoolScrubJob)

theorem call_unless {e : ScrubCall} (he : Succeeds e → K) :
    (ask e).run.Calls fun e => Succeeds e → K := by
  exact ⟨he, fun r => by cases r <;> trivial⟩

theorem setPhase_unless {phase : ScrubPhase} (hphase : phase ≠ .succeeded) (msg : String) :
    (setPhase cr phase msg).run.Calls fun e => Succeeds e → K := by
  unfold setPhase
  split_ifs
  · simp
  · refine call_unless fun h => ?_
    simp [Succeeds, hphase] at h

theorem finish_unless {phase : ScrubPhase} (hphase : phase = .succeeded → K) (msg : String) :
    (finish cr phase msg).run.Calls fun e => Succeeds e → K := by
  refine Proc.bind_calls (call_unless (by simp [Succeeds])) fun now => call_unless fun h => ?_
  exact hphase (by simpa [Succeeds] using h)

theorem syncConditions_unless (job : Job) (conditions : List JobCondition)
    (h : (∃ c ∈ conditions, c.status = true ∧ c.type = .complete) → K) :
    (syncConditions cr job conditions).run.Calls fun e => Succeeds e → K := by
  induction conditions with
  | nil => exact setPhase_unless cr (by simp) _
  | cons c rest ih =>
    have hrest := ih fun ⟨d, hd, hcomplete⟩ => h ⟨d, List.mem_cons_of_mem _ hd, hcomplete⟩
    unfold syncConditions
    split_ifs with hstatus
    · exact hrest
    · cases htype : c.type with
      | complete =>
        exact finish_unless cr (fun _ => h ⟨c, List.mem_cons_self, by simpa using hstatus, htype⟩) _
      | other => exact hrest
      | failed =>
        refine Proc.bind_calls
          (Proc.bind_calls (Proc.outcome_calls (call_unless (by simp [Succeeds]))) fun pods => ?_)
          fun msg => finish_unless cr (by simp) _
        cases pods with
        | error e => simp
        | ok containers =>
          simp only
          split <;> simp

theorem start_unless : (start cr).run.Calls fun e => Succeeds e → K := by
  refine Proc.bind_calls (call_unless (by simp [Succeeds])) fun template => ?_
  cases template with
  | none => exact Proc.bind_calls (setPhase_unless cr (by simp) _) fun _ => by simp
  | some template =>
    refine Proc.bind_calls (call_unless (by simp [Succeeds])) fun pools => ?_
    split
    · exact Proc.bind_calls (finish_unless cr (by simp) _) fun _ => by simp
    · refine Proc.bind_calls (Proc.outcome_calls (call_unless (by simp [Succeeds])))
        fun created => ?_
      split
      · simp
      · exact Proc.bind_calls (finish_unless cr (by simp) _) fun _ => by simp
      · exact Proc.bind_calls (setPhase_unless _ (by simp) _) fun _ => by simp

/-- A pass that has looked for the Job makes the scrub succeeded only if the Job is complete. -/
theorem reconcileCopy_unless : ∃ rest, reconcileCopy cr =
      (if cr.status.phase = some .succeeded ∨ cr.status.phase = some .failed then return .no
        else (ask (.getJob cr.name)).outcome >>= rest) ∧
    ∀ found, (∀ job, found = .ok job → Completed job → K) →
      (rest found).run.Calls fun e => Succeeds e → K := by
  refine ⟨_, rfl, fun found h => ?_⟩
  cases found with
  | error e =>
    simp only
    split
    · split
      · exact Proc.bind_calls (finish_unless cr (by simp) _) fun _ => by simp
      · exact start_unless cr
    · simp
  | ok job =>
    simp only
    split
    · exact Proc.bind_calls (finish_unless cr (by simp) _) fun _ => by simp
    · exact Proc.bind_calls (syncConditions_unless _ job _ (h job rfl)) fun _ => by simp

end Job

/-- Kubernetes completes a Job when its program has exited with 0, after it has read the status. -/
def RanOn (status : String) (job : Job) : Prop := Completed job → ∃ guid, ExitsOK status guid

theorem reconcile_succeeds {σ : Type} {h : (e : ScrubCall) → σ → e.Ret × σ}
    {fails : (e : ScrubCall) → e.Ret → Prop}
    {rely : ScrubCall → σ → σ → Prop} {K : Prop}
    (hjob : ∀ name s job, (h (.getJob name) s).1 = .ok job → Completed job → K)
    (hfails : ∀ name job, fails (.getJob name) (.ok job) → Completed job → K)
    (name : String) (s : σ) :
    (ZfsPoolScrubJobReconciler.reconcile name).run.wp h fails rely (fun e _ _ => Succeeds e → K)
      (fun _ _ => True) s := by
  have hcalls {α : Type} {p : Program ScrubCall ScrubCall.Ret α}
      (hp : p.Calls fun e => Succeeds e → K) (t : σ) :
      p.wp h fails rely (fun e _ _ => Succeeds e → K) (fun _ _ => True) t :=
    hp.wp (fun _ _ _ _ _ _ => trivial) (fun e s he _ => ⟨he, trivial⟩) trivial
  have hcopy (cr : ZfsPoolScrubJob) (t : σ) :
      (ZfsPoolScrubJobReconciler.reconcileCopy cr).run.wp h fails rely
      (fun e _ _ => Succeeds e → K) (fun _ _ => True) t := by
    obtain ⟨rest, heq, hrest⟩ := reconcileCopy_unless (K := K) cr
    rw [heq]
    split_ifs
    · trivial
    · refine Proc.outcome_ask_wp fun u _ => ⟨by simp [Succeeds], ?_, fun r hr => ?_⟩
      · exact hcalls (hrest _ (hjob _ u)) _
      · exact hcalls (hrest r fun job hok => hfails _ job (hok ▸ hr)) u
  have hmissing (e : Err) (t : σ) :
      (if e.isNotFound then return .no else throw e : ScrubProc Requeue).run.wp h fails rely
      (fun e _ _ => Succeeds e → K) (fun _ _ => True) t := by
    split <;> trivial
  refine Proc.outcome_ask_wp fun u _ => ⟨by simp [Succeeds], ?_, fun r _ => ?_⟩
  · cases (h (.getScrubJob name) u).1 with
    | error e => exact hmissing e _
    | ok cr => exact hcopy cr _
  · cases r with
    | error e => exact hmissing e u
    | ok cr => exact hcopy cr u

/-! ## When the report is right -/

/-- What the report, the program and the scrub say of a status: they succeed only after a clean
scrub. -/
structure Sound (status : String) : Prop where
  report : (parseScrubReport status).ok = true → Clean status
  program : ∀ guid, ExitsOK status guid → Clean status
  job : ∀ {σ : Type} {h : (e : ScrubCall) → σ → e.Ret × σ} {fails : (e : ScrubCall) → e.Ret → Prop}
    {rely : ScrubCall → σ → σ → Prop} {name : String} {s t : σ} {l : List (ScrubCall × σ)}
    {o : Option (Except Err Requeue)},
      (∀ name s job, (h (.getJob name) s).1 = .ok job → RanOn status job) →
    (∀ name job, fails (.getJob name) (.ok job) → RanOn status job) →
    Program.Runs h fails rely (ZfsPoolScrubJobReconciler.reconcile name).run s l o t →
    ∀ c ∈ l, Succeeds c.1 → Clean status

theorem Sound.of_report {status : String} (h : (parseScrubReport status).ok = true → Clean status) :
    Sound status where
  report := h
  program _ hexit := h hexit.report
  job hjob hfails hr c hc hsucceeds := by
    have hruns := (Program.wp_runs (reconcile_succeeds hjob hfails _ _) hr).1 c hc hsucceeds
    obtain ⟨guid, hexit⟩ := hruns
    exact h hexit.report

/-- The report is right for the statuses it rejects by the state or the errors, and for those whose
scan line has a clause about errors and, if the clause is that there were none, is of a scrub that
finished. -/
theorem sound_iff (status : String) : Sound status ↔
    stateOK (stateLine status) = false ∨ errorsOK (errorsLine status) = false ∨
    contains (scanLine status) "with " = true ∧
      (contains (scanLine status) "with 0 errors" = true → FinishedCleanly (scanLine status)) := by
  constructor
  · intro hsound
    have hreport := hsound.report
    rw [parseScrubReport_ok] at hreport
    by_cases hstate : stateOK (stateLine status) = false
    · exact .inl hstate
    by_cases herrors : errorsOK (errorsLine status) = false
    · exact .inr (.inl herrors)
    refine .inr (.inr ⟨?_, fun hclause => ?_⟩)
    · by_contra hnone
      have hclean : Clean status := hreport (by simp_all [scanOK])
      exact hnone (contains_of_contains hclean.scan.contains)
    · have hclean : Clean status := hreport (by simp_all [scanOK])
      exact hclean.scan
  · intro hcond
    refine .of_report fun hok => ?_
    rw [parseScrubReport_ok, Bool.and_eq_true, Bool.and_eq_true] at hok
    obtain ⟨⟨hstate, herrors⟩, hscan⟩ := hok
    rcases hcond with hbad | hbad | ⟨hwith, hfinished⟩
    · simp [hbad] at hstate
    · simp [hbad] at herrors
    · refine ⟨spells_of_stateOK hstate, hfinished ?_, mentions_of_contains herrors⟩
      simpa [scanOK, hwith] using hscan

/-- A pool that was never scrubbed. -/
def neverScrubbed : String := "state: ONLINE\nscan: none requested\nerrors: No known data errors"

/-- A node with one pool, `tank`, which was never scrubbed. -/
def tankNode (e : ZpoolCall) (s : Unit) : e.Ret × Unit :=
  (.ok (match e.args.head? with
    | some "list" => "tank\t12140134988506841113\n"
    | some "status" => neverScrubbed
    | _ => ""), s)

theorem never_scrubbed_passes : (parseScrubReport neverScrubbed).ok = true ∧
    ExitsOK neverScrubbed "12140134988506841113" ∧ ¬ Clean neverScrubbed := by
  refine ⟨by decide +kernel, ⟨Unit, tankNode, (), ?_, by decide +kernel⟩, fun hclean => ?_⟩
  · intro pool s text htext
    cases htext
    rfl
  · have hclause := hclean.scan.contains
    revert hclause
    decide +kernel

end SimpleZfsCsi.Scrub
