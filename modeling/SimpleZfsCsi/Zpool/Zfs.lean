import SimpleZfsCsi.Zpool.Output

/-!
# What the host's zfs does

`Zfs` is the binary that `CLI` runs, with its pools: what it prints, how it fails, and what it does.
`Lawful` is what its manual says about the commands that `CLI` gives it: what is printed is what the
in-memory ZFS answers, clones in any order, and what is done is what it does. A command may always
fail for a reason of its own and without an effect; then its text has none of the phrases that `CLI`
looks for. `Apt` are the calls that this covers.
-/

namespace SimpleZfsCsi.Zpool

open Library Agent Memzfs Text

structure Zfs (σ : Type) where
  run : Command → σ → Except Failure String × σ
  /-- the pools as the in-memory ZFS would hold them -/
  mem : σ → Mem
  /-- the sizes that are not rounded up to the block size of a zvol -/
  fits : Int → Prop
  /-- the values of a property that are stored as they are given -/
  verbatim : String → String → Prop

/-! ## Outcomes -/

namespace Zfs

variable {σ : Type} (Z : Zfs σ)

/-- The command prints `out`, and then the pools are `m`. -/
def Prints (c : Command) (s : σ) (out : String) (m : Mem) : Prop :=
  (Z.run c s).1 = .ok out ∧ Z.mem (Z.run c s).2 = m

/-- The command fails with a text that satisfies `P`, and without an effect. -/
def Refuses (c : Command) (s : σ) (P : String → Prop) : Prop :=
  ∃ f, (Z.run c s).1 = .error f ∧ P f.text ∧ Z.mem (Z.run c s).2 = Z.mem s

/-- The command fails for a reason of its own. -/
def Fails (c : Command) (s : σ) : Prop := Z.Refuses c s fun text => silent text = true

/-- The command does what the in-memory ZFS does, or fails with a text that satisfies `P`. -/
def Acts (c : Command) (s : σ) (r : Except Err Unit × Mem) (P : String → Prop) : Prop :=
  (r.1 = .ok () ∧ ∃ out, Z.Prints c s out r.2) ∨ Z.Refuses c s P

/-- The command prints what the in-memory ZFS returns, or says that it is missing. -/
def Answers {α : Type} (c : Command) (s : σ) (render : α → String) : Except Err α → Prop
  | .ok a => Z.Prints c s (render a) (Z.mem s)
  | .error _ => Z.Refuses c s fun text => saysMissing text = true

end Zfs

/-! ## Arguments -/

/-- A dataset or a snapshot has this name. -/
def has (m : Mem) (name : String) : Bool :=
  if (Memzfs.split name).2.2 then
    (m.lookupSnap (Memzfs.split name).1 (Memzfs.split name).2.1).isSome
  else (m.ds.lookup name).isSome

def getArgs (name prop : String) : List String := ["get", "-H", "-p", "-o", "value", prop, name]

def listArgs (dataset : String) : List String :=
  ["list", "-H", "-o", "name", "-t", "snapshot", "-d", "1", "-s", "creation", dataset]

/-- The arguments that set properties. -/
def optionArgs (opts : Props) : List String := opts.flatMap fun o => ["-o", o.1 ++ "=" ++ o.2]

def cloneArgs (opts : Props) (snap dest : String) : List String :=
  "clone" :: (optionArgs opts ++ [snap, dest])

def destroyArgs (name : String) (recursive : Bool) : List String :=
  "destroy" :: ((if recursive then ["-r"] else []) ++ [name])

/-- Properties that are set as they are given, none of them twice. -/
structure Settable {σ : Type} (Z : Zfs σ) (opts : Props) : Prop where
  nodup : (opts.map (·.1)).Nodup
  names : ∀ o ∈ opts, propName o.1 = true ∧ Z.verbatim o.1 o.2

/-! ## The laws -/

section Laws

variable {σ : Type} (z : CLI) (Z : Zfs σ)

/-- What zfs, as it is reached by `z`, is known to do. -/
structure Lawful : Prop where
  get : ∀ {s name prop}, Neat (Z.mem s).ds → neatName name → propName prop → modelled name prop →
    Z.Answers (z.zfs (getArgs name prop)) s (· ++ "\n") ((Z.mem s).get name prop) ∨
    Z.Fails (z.zfs (getArgs name prop)) s
  get_native : ∀ {s name prop}, Neat (Z.mem s).ds → neatName name → propName prop →
    modelled name prop = false →
    (∃ v, Z.Answers (z.zfs (getArgs name prop)) s (· ++ "\n")
      (((Z.mem s).get name prop).map fun _ => v)) ∨
    Z.Fails (z.zfs (getArgs name prop)) s
  /-- the clones come in any order -/
  clones : ∀ {s snap}, Neat (Z.mem s).ds → neatName snap → ¬ Plain snap →
    (∃ names value, names.Perm ((Z.mem s).clonesOf snap) ∧ ListsClones names value ∧
      Z.Answers (z.zfs (getArgs snap "clones")) s (· ++ "\n")
        (((Z.mem s).clones snap).map fun _ => value)) ∨
    Z.Fails (z.zfs (getArgs snap "clones")) s
  list : ∀ {s dataset}, Neat (Z.mem s).ds → neatName dataset → Plain dataset →
    Z.Answers (z.zfs (listArgs dataset)) s (fun names => String.join (names.map (· ++ "\n")))
      ((Z.mem s).listSnapshots dataset) ∨
    Z.Fails (z.zfs (listArgs dataset)) s
  create : ∀ {s opts name}, neatName name → Plain name → Settable Z opts →
    Z.Acts (z.zfs ("create" :: (optionArgs opts ++ [name]))) s
      ((Z.mem s).createDataset name (FinMap.ofList opts)) fun _ => True
  create_zvol : ∀ {s opts name size}, neatName name → Plain name → Settable Z opts →
    0 < size → Z.fits size →
    Z.Acts (z.zfs ("create" :: "-V" :: toString size :: (optionArgs opts ++ [name]))) s
      ((Z.mem s).createZvol name size (FinMap.ofList opts)) fun _ => True
  /-- none of the snapshots is there -/
  snapshot :
    ∀ {s names}, (∀ n ∈ names, neatName n ∧ ¬ Plain n ∧ has (Z.mem s) n = false) → names ≠ [] →
    Z.Acts (z.zfs ("snapshot" :: names)) s ((Z.mem s).snapshot names)
      fun text => saysPresent text = false
  /-- the datasets are there, and so is one of the snapshots -/
  snapshot_again : ∀ {s names},
    (∀ n ∈ names, neatName n ∧ ¬ Plain n ∧ ((Z.mem s).ds.lookup (Memzfs.split n).1).isSome) →
    (∃ n ∈ names, has (Z.mem s) n) →
    Z.Refuses (z.zfs ("snapshot" :: names)) s (fun text => saysPresent text = true) ∨
    Z.Fails (z.zfs ("snapshot" :: names)) s
  clone : ∀ {s opts snap dest}, neatName snap → ¬ Plain snap → neatName dest → Plain dest →
    Settable Z opts →
    has (Z.mem s) snap = false ∨ has (Z.mem s) dest = false →
    Z.Acts (z.zfs (cloneArgs opts snap dest)) s ((Z.mem s).clone snap dest (FinMap.ofList opts))
      fun text => saysPresent text = false
  clone_again : ∀ {s opts snap dest}, neatName snap → ¬ Plain snap → neatName dest → Plain dest →
    Settable Z opts →
    has (Z.mem s) snap → has (Z.mem s) dest →
    Z.Refuses (z.zfs (cloneArgs opts snap dest)) s (fun text => saysPresent text = true) ∨
    Z.Fails (z.zfs (cloneArgs opts snap dest)) s
  /-- at times a promote does nothing: openzfs/zfs#15587 -/
  promote : ∀ {s name}, neatName name → Plain name →
    Z.Acts (z.zfs ["promote", name]) s ((Z.mem s).promote name) (fun _ => True) ∨
    ∃ out, Z.Prints (z.zfs ["promote", name]) s out (Z.mem s)
  destroy : ∀ {s name recursive}, Neat (Z.mem s).ds → neatName name →
    (recursive = true → Plain name) →
    has (Z.mem s) name →
    Z.Acts (z.zfs (destroyArgs name recursive)) s ((Z.mem s).destroy name recursive)
      fun text => saysMissing text = false
  destroy_missing : ∀ {s name recursive}, neatName name → (recursive = true → Plain name) →
    has (Z.mem s) name = false →
    Z.Refuses (z.zfs (destroyArgs name recursive)) s (fun text => saysMissing text = true) ∨
    Z.Fails (z.zfs (destroyArgs name recursive)) s
  destroy_deferred : ∀ {s snap}, Neat (Z.mem s).ds → neatName snap → ¬ Plain snap →
    has (Z.mem s) snap →
    Z.Acts (z.zfs ["destroy", "-d", snap]) s ((Z.mem s).destroySnapshotDeferred snap)
      fun text => saysMissing text = false
  destroy_deferred_missing : ∀ {s snap}, neatName snap → ¬ Plain snap → has (Z.mem s) snap = false →
    Z.Refuses (z.zfs ["destroy", "-d", snap]) s (fun text => saysMissing text = true) ∨
    Z.Fails (z.zfs ["destroy", "-d", snap]) s
  set : ∀ {s name prop value}, neatName name → propName prop → Z.verbatim prop value →
    Z.Acts (z.zfs ["set", prop ++ "=" ++ value, name]) s
      ((Z.mem s).setProperty name prop value) fun _ => True
  /-- the files below a mountpoint are not part of what is modelled -/
  ownership : ∀ {s name args}, name ∈ ["chown", "chmod"] →
    Z.mem (Z.run (z.command name args) s).2 = Z.mem s

/-- An error is not told by what the command line itself says. -/
def SilentLine (args : List String) : Prop := silent (z.zfs args).line = true

/-- Properties that can be set and read back. -/
def AptProps (props : Props) : Prop :=
  ∀ o ∈ props, propName o.1 = true ∧ Z.verbatim o.1 o.2 ∧ Trimmed o.2

/-- The calls that the laws cover. An empty name is refused before anything is run. -/
def Apt (m : Mem) : AgentCall → Prop
  | .get name prop => neatName name ∧ propName prop ∧ SilentLine z (getArgs name prop)
  | .createDataset name props => name ≠ "" → neatName name ∧ Plain name ∧ AptProps Z props
  | .createZvol name size props =>
    name ≠ "" → 0 < size → neatName name ∧ Plain name ∧ Z.fits size ∧ AptProps Z props
  | .snapshot names =>
    (∀ n ∈ names, neatName n ∧ SilentLine z (getArgs n "type")) ∧
      SilentLine z ("snapshot" :: names) ∧
    -- if one of the snapshots is there and the dataset of another is not, then zfs reports both,
    -- and the call returns that some of the snapshots exist
    ((∃ n ∈ names, has m n) → ∀ n ∈ names, (m.ds.lookup (Memzfs.split n).1).isSome)
  | .clone snap dest props => snap ≠ "" → dest ≠ "" →
    neatName snap ∧ neatName dest ∧ Plain dest ∧ AptProps Z props ∧
      SilentLine z (cloneArgs (byKey props) snap dest)
  | .promote name => name ≠ "" → neatName name ∧ Plain name ∧ SilentLine z (getArgs name "origin")
  | .destroy name recursive => name ≠ "" →
    neatName name ∧ (recursive = true → Plain name) ∧ SilentLine z (destroyArgs name recursive)
  | .destroySnapshotDeferred name => neatName name ∧ SilentLine z ["destroy", "-d", name]
  | .listSnapshots dataset =>
    dataset ≠ "" → neatName dataset ∧ Plain dataset ∧ SilentLine z (listArgs dataset)
  | .clones snap => neatName snap ∧ SilentLine z (getArgs snap "clones")
  | .setProperty name prop value =>
    name ≠ "" → neatName name ∧ propName prop ∧ Z.verbatim prop value ∧ Trimmed value
  | _ => True

end Laws

/-! ## A lawful zfs -/

theorem split_of_not_plain {name : String} (h : ¬ Plain name) : (Memzfs.split name).2.2 = true := by
  rcases split_cases name with ⟨d, n, hd, rfl, hsplit⟩ | ⟨hplain, _⟩
  · rw [hsplit]
  · exact absurd hplain h

/-- The property `clones` of the in-memory ZFS. -/
theorem get_clones {m : Mem} {snap : String} (hsnap : ¬ Plain snap) :
    ∃ value, ListsClones (m.clonesOf snap) value ∧
      m.get snap "clones" = (m.clones snap).map fun _ => value := by
  rcases split_cases snap with ⟨d, n, hd, rfl, hsplit⟩ | ⟨hplain, _⟩
  swap
  · exact absurd hplain hsnap
  refine ⟨if m.clonesOf (snapPath d n) = [] then "-" else join "," (m.clonesOf (snapPath d n)),
    ?_, ?_⟩
  · cases m.clonesOf (snapPath d n) with
    | nil => exact .inr ⟨rfl, rfl⟩
    | cons c rest => exact .inl rfl
  · unfold Mem.get Mem.clones
    simp only [hsplit, if_true, Bool.not_true, Bool.false_eq_true, if_false]
    cases hD : m.ds.lookup d with
    | none => simp [Mem.lookupSnap, hD, Except.map]
    | some D =>
      cases hn : D.snaps.lookup n with
      | none => simp [Mem.lookupSnap, hD, hn, Except.map]
      | some σ =>
        cases hclones : m.clonesOf (snapPath d n) <;>
          simp only [Mem.lookupSnap, hD, hn, hclones, Except.map, Mem.getSnap, Option.bind_some,
            String.reduceEq, reduceCtorEq, if_false, if_true]

/-- `zfs` fails with this text. -/
def complain (text : String) : Failure := .exit "exit status 1" (text ++ "\n")

def missing (name : String) : Failure :=
  complain ("cannot open '" ++ name ++ "': dataset " ++ "does not exist")

def present : Failure := complain "dataset already exists"

def refused : Failure := complain "operation not possible"

/-- The name and the value in an assignment. -/
def assignment (text : String) : String × String :=
  (String.ofList (text.toList.takeWhile (· ≠ '=')),
    String.ofList (text.toList.dropWhile (· ≠ '=')).tail)

/-- The properties that come first, and the rest of the arguments. -/
def options : List String → Props × List String
  | "-o" :: text :: rest => (assignment text :: (options rest).1, (options rest).2)
  | rest => ([], rest)

namespace Host

/-- The pools, and how many of the next promotes do nothing. -/
abbrev State := Mem × Nat

/-- Print what there is about `name`. -/
def answer {α : Type} (s : State) (name : String) (render : α → String) :
    Except Err α → Except Failure String × State
  | .ok a => (.ok (render a), s)
  | .error _ => (.error (missing name), s)

/-- Do what the in-memory ZFS does. -/
def act (s : State) (r : Except Err Unit × Mem) : Except Failure String × State :=
  match r.1 with
  | .ok () => (.ok "", r.2, s.2)
  | .error _ => (.error refused, s)

def get (s : State) : List String → Except Failure String × State
  | ["-H", "-p", "-o", "value", prop, name] => answer s name (· ++ "\n") (s.1.get name prop)
  | _ => (.error refused, s)

def list (s : State) : List String → Except Failure String × State
  | ["-H", "-o", "name", "-t", "snapshot", "-d", "1", "-s", "creation", dataset] =>
    answer s dataset (fun names => String.join (names.map (· ++ "\n"))) (s.1.listSnapshots dataset)
  | _ => (.error refused, s)

def create (s : State) (args : List String) : Except Failure String × State :=
  match args with
  | "-V" :: size :: rest =>
    match options rest with
    | (opts, [name]) => act s (s.1.createZvol name (parseInt size).1 (FinMap.ofList opts))
    | _ => (.error refused, s)
  | _ =>
    match options args with
    | (opts, [name]) => act s (s.1.createDataset name (FinMap.ofList opts))
    | _ => (.error refused, s)

def snapshot (s : State) (names : List String) : Except Failure String × State :=
  if names.any (has s.1) then (.error present, s) else act s (s.1.snapshot names)

def clone (s : State) (args : List String) : Except Failure String × State :=
  match options args with
  | (opts, [snap, dest]) =>
    if has s.1 snap && has s.1 dest then (.error present, s)
    else act s (s.1.clone snap dest (FinMap.ofList opts))
  | _ => (.error refused, s)

def promote (s : State) : List String → Except Failure String × State
  | [name] => if 0 < s.2 then (.ok "", s.1, s.2 - 1) else act s (s.1.promote name)
  | _ => (.error refused, s)

def destroy (s : State) : List String → Except Failure String × State
  | ["-d", snap] =>
    if has s.1 snap then act s (s.1.destroySnapshotDeferred snap) else (.error (missing snap), s)
  | ["-r", name] =>
    if has s.1 name then act s (s.1.destroy name true) else (.error (missing name), s)
  | [name] => if has s.1 name then act s (s.1.destroy name false) else (.error (missing name), s)
  | _ => (.error refused, s)

def set (s : State) : List String → Except Failure String × State
  | [text, name] => act s (s.1.setProperty name (assignment text).1 (assignment text).2)
  | _ => (.error refused, s)

/-- Carry out a command. -/
def zfs (s : State) : List String → Except Failure String × State
  | [] => (.error refused, s)
  | cmd :: args =>
    if cmd = "get" then get s args
    else if cmd = "list" then list s args
    else if cmd = "create" then create s args
    else if cmd = "snapshot" then snapshot s args
    else if cmd = "clone" then clone s args
    else if cmd = "promote" then promote s args
    else if cmd = "destroy" then destroy s args
    else if cmd = "set" then set s args
    else (.error refused, s)

end Host

/-- A host with the in-memory ZFS. -/
def hostZfs : Zfs Host.State where
  run c s := if c.name = "zfs" then Host.zfs s c.args else (.error refused, s)
  mem s := s.1
  fits size := size < 2 ^ 63
  verbatim _ _ := True

@[simp] theorem hostZfs_run (s : Host.State) (args : List String) :
    hostZfs.run (CLI.zfs {} args) s = Host.zfs s args := rfl

section Host

variable {s : Host.State} {args : List String}

theorem saysMissing_missing (name : String) : saysMissing (missing name).text = true := by
  have hlast : "does not exist".toList.getLast? = some 't' := by decide +kernel
  have htrim : trimSpace ("cannot open '" ++ name ++ "': dataset " ++ "does not exist" ++ "\n") =
      "cannot open '" ++ name ++ "': dataset " ++ "does not exist" := by
    rw [trimSpace_newline]
    refine trimWhere_eq (fun c hc => ?_) fun c hc => ?_
    · obtain rfl : 'c' = c := by simpa using hc
      decide
    · rw [String.toList_append, List.getLast?_append, hlast] at hc
      obtain rfl : 't' = c := by simpa using hc
      decide
  have htext : (missing name).text =
      "exit status 1: cannot open '" ++ name ++ "': dataset " ++ "does not exist" ++ "" := by
    show "exit status 1" ++ ": " ++ trimSpace _ = _
    rw [htrim]
    simp [String.append_assoc, ← String.toList_inj]
  rw [htext, saysMissing, Scrub.contains_middle, Bool.true_or]

theorem hostZfs_answers {α : Type} {name : String} {render : α → String} {r : Except Err α}
    (h : Host.zfs s args = Host.answer s name render r) :
    hostZfs.Answers (CLI.zfs {} args) s render r := by
  cases r with
  | ok a => exact ⟨by rw [hostZfs_run, h]; rfl, by rw [hostZfs_run, h]; rfl⟩
  | error err =>
    exact ⟨_, by rw [hostZfs_run, h]; rfl, saysMissing_missing name, by rw [hostZfs_run, h]; rfl⟩

theorem hostZfs_acts {r : Except Err Unit × Mem} (h : Host.zfs s args = Host.act s r)
    {P : String → Prop} (hP : P "exit status 1: operation not possible") :
    hostZfs.Acts (CLI.zfs {} args) s r P := by
  unfold Host.act at h
  cases hr : r.1 with
  | ok =>
    rw [hr] at h
    exact .inl ⟨hr, "", by rw [hostZfs_run, h], by rw [hostZfs_run, h]; rfl⟩
  | error err =>
    rw [hr] at h
    exact .inr ⟨refused, by rw [hostZfs_run, h], hP, by rw [hostZfs_run, h]⟩

theorem hostZfs_missing {name : String} (h : Host.zfs s args = (.error (missing name), s)) :
    hostZfs.Refuses (CLI.zfs {} args) s fun text => saysMissing text = true :=
  ⟨_, by rw [hostZfs_run, h], saysMissing_missing name, by rw [hostZfs_run, h]⟩

theorem hostZfs_present (h : Host.zfs s args = (.error present, s)) :
    hostZfs.Refuses (CLI.zfs {} args) s fun text => saysPresent text = true :=
  ⟨present, by rw [hostZfs_run, h], by decide +kernel, by rw [hostZfs_run, h]⟩

/-- An assignment is read as it was written. -/
theorem assignment_eq {prop value : String} (h : propName prop = true) :
    assignment (prop ++ "=" ++ value) = (prop, value) := by
  have hprop : ∀ c ∈ prop.toList, decide (c ≠ '=') = true := by
    intro c hc
    have hlegal := List.all_eq_true.mp h c hc
    refine decide_eq_true fun heq => ?_
    subst heq
    exact absurd hlegal (by decide)
  have hlist : (prop ++ "=" ++ value).toList = prop.toList ++ '=' :: value.toList := by
    simp [String.toList_append]
  unfold assignment
  rw [hlist, List.takeWhile_append_of_pos hprop, List.dropWhile_append_of_pos hprop]
  simp

/-- The properties are read as they were written. -/
theorem options_eq {opts : Props} (h : ∀ o ∈ opts, propName o.1 = true) {names : List String}
    (hnames : names.head? ≠ some "-o") : options (optionArgs opts ++ names) = (opts, names) := by
  induction opts with
  | nil =>
    show options names = ([], names)
    unfold options
    split
    · exact absurd rfl hnames
    · rfl
  | cons o opts ih =>
    have hcons : optionArgs (o :: opts) ++ names =
        "-o" :: (o.1 ++ "=" ++ o.2) :: (optionArgs opts ++ names) := rfl
    rw [hcons, options, ih fun o' ho' => h o' (List.mem_cons_of_mem _ ho'),
      assignment_eq (h o List.mem_cons_self)]

/-- A name of ZFS is no option. -/
theorem head_ne_dash {name text : String} (hname : neatName name = true)
    (htext : text.toList.head? = some '-') : name ≠ text := by
  rintro rfl
  have halpha := (Bool.and_eq_true_iff.mp hname).1
  rw [htext] at halpha
  exact absurd halpha (by decide)

section Commands

variable {opts : Props} {name snap dest prop value : String} (hopts : Settable hostZfs opts)
  (hname : neatName name = true)

include hopts hname in
theorem host_create : Host.zfs s ("create" :: (optionArgs opts ++ [name])) =
    Host.act s (s.1.createDataset name (FinMap.ofList opts)) := by
  have hmatch : Host.zfs s ("create" :: (optionArgs opts ++ [name])) =
      match options (optionArgs opts ++ [name]) with
      | (opts, [name]) => Host.act s (s.1.createDataset name (FinMap.ofList opts))
      | _ => (.error refused, s) := by
    cases opts with
    | nil =>
      show Host.create s [name] = _
      unfold Host.create
      split
      · rename_i heq
        exact absurd heq (by simp)
      · rfl
    | cons o opts => rfl
  have hdash : [name].head? ≠ some "-o" :=
    fun h => head_ne_dash hname (by decide +kernel) (Option.some_inj.mp h)
  rw [hmatch, options_eq (fun o ho => (hopts.names o ho).1) hdash]

include hopts hname in
theorem host_createZvol {size : Int} (hpos : 0 < size) (hfits : hostZfs.fits size) :
    Host.zfs s ("create" :: "-V" :: toString size :: (optionArgs opts ++ [name])) =
      Host.act s (s.1.createZvol name size (FinMap.ofList opts)) := by
  have hmatch : Host.zfs s ("create" :: "-V" :: toString size :: (optionArgs opts ++ [name])) =
      match options (optionArgs opts ++ [name]) with
      | (opts, [name]) =>
        Host.act s (s.1.createZvol name (parseInt (toString size)).1 (FinMap.ofList opts))
      | _ => (.error refused, s) := rfl
  have hdash : [name].head? ≠ some "-o" :=
    fun h => head_ne_dash hname (by decide +kernel) (Option.some_inj.mp h)
  have hsize : parseInt (toString size) = (size, true) := parseInt_int (by omega) hfits
  rw [hmatch, options_eq (fun o ho => (hopts.names o ho).1) hdash, hsize]

include hopts in
theorem host_clone (hsnap : neatName snap = true) : Host.zfs s (cloneArgs opts snap dest) =
    if has s.1 snap && has s.1 dest then (.error present, s)
    else Host.act s (s.1.clone snap dest (FinMap.ofList opts)) := by
  have hmatch : Host.zfs s (cloneArgs opts snap dest) =
      match options (optionArgs opts ++ [snap, dest]) with
      | (opts, [snap, dest]) =>
        if has s.1 snap && has s.1 dest then (.error present, s)
        else Host.act s (s.1.clone snap dest (FinMap.ofList opts))
      | _ => (.error refused, s) := rfl
  have hdash : [snap, dest].head? ≠ some "-o" :=
    fun h => head_ne_dash hsnap (by decide +kernel) (Option.some_inj.mp h)
  rw [hmatch, options_eq (fun o ho => (hopts.names o ho).1) hdash]

theorem host_destroy (recursive : Bool) : Host.zfs s (destroyArgs name recursive) =
    if has s.1 name then Host.act s (s.1.destroy name recursive) else
      (.error (missing name), s) := by
  cases recursive with
  | true => rfl
  | false =>
    show Host.destroy s [name] = _
    unfold Host.destroy
    split
    · rename_i heq
      exact absurd heq (by simp)
    · rename_i heq
      exact absurd heq (by simp)
    · rename_i heq
      obtain rfl := (List.cons.inj heq).1
      rfl
    · rename_i hother
      exact absurd rfl (hother name)

theorem host_destroyDeferred : Host.zfs s ["destroy", "-d", snap] =
    if has s.1 snap then Host.act s (s.1.destroySnapshotDeferred snap) else
      (.error (missing snap), s) := rfl

theorem host_snapshot {names : List String} : Host.zfs s ("snapshot" :: names) =
    if names.any (has s.1) then (.error present, s) else Host.act s (s.1.snapshot names) := rfl

theorem host_set (hprop : propName prop = true) : Host.zfs s ["set", prop ++ "=" ++ value, name] =
    Host.act s (s.1.setProperty name prop value) := by
  have hmatch : Host.zfs s ["set", prop ++ "=" ++ value, name] = Host.act s (s.1.setProperty name
      (assignment (prop ++ "=" ++ value)).1 (assignment (prop ++ "=" ++ value)).2) := rfl
  rw [hmatch, assignment_eq hprop]

theorem host_promote :
    hostZfs.Acts (CLI.zfs {} ["promote", name]) s (s.1.promote name) (fun _ => True) ∨
    ∃ out, hostZfs.Prints (CLI.zfs {} ["promote", name]) s out s.1 := by
  by_cases hlost : 0 < s.2
  · have hrun : Host.zfs s ["promote", name] = (.ok "", s.1, s.2 - 1) := if_pos hlost
    exact .inr ⟨"", by rw [hostZfs_run, hrun], by rw [hostZfs_run, hrun]; rfl⟩
  · have hrun : Host.zfs s ["promote", name] = Host.act s (s.1.promote name) := if_neg hlost
    exact .inl (hostZfs_acts hrun trivial)

end Commands

/-- The value of a property that the in-memory ZFS gives it. -/
theorem host_getNative (name prop : String) :
    ∃ v, hostZfs.Answers (CLI.zfs {} (getArgs name prop)) s (· ++ "\n")
    ((s.1.get name prop).map fun _ => v) := by
  have hget : hostZfs.Answers (CLI.zfs {} (getArgs name prop)) s (· ++ "\n") (s.1.get name prop) :=
    hostZfs_answers rfl
  cases hvalue : s.1.get name prop with
  | ok value =>
    rw [hvalue] at hget
    exact ⟨value, hget⟩
  | error err =>
    rw [hvalue] at hget
    exact ⟨"", hget⟩

/-- The in-memory ZFS lists the clones of a snapshot by their names. -/
theorem host_clones {snap : String} (hsnap : ¬ Plain snap) :
    ∃ value, ListsClones (s.1.clonesOf snap) value ∧
    hostZfs.Answers (CLI.zfs {} (getArgs snap "clones")) s (· ++ "\n")
      ((s.1.clones snap).map fun _ => value) := by
  have hget :
      hostZfs.Answers (CLI.zfs {} (getArgs snap "clones")) s (· ++ "\n") (s.1.get snap "clones") :=
    hostZfs_answers rfl
  obtain ⟨value, hlists, hvalue⟩ : ∃ value, ListsClones (s.1.clonesOf snap) value ∧
      s.1.get snap "clones" = (s.1.clones snap).map fun _ => value := get_clones hsnap
  exact ⟨value, hlists, hvalue ▸ hget⟩

theorem hostZfs_lawful : Lawful {} hostZfs where
  get _ _ _ _ := .inl (hostZfs_answers rfl)
  get_native _ _ _ _ := .inl (host_getNative _ _)
  clones _ _ hsnap := by
    obtain ⟨value, hlists, hanswers⟩ := host_clones hsnap
    exact .inl ⟨_, value, .refl _, hlists, hanswers⟩
  list _ _ _ := .inl (hostZfs_answers rfl)
  create hname _ hopts := hostZfs_acts (host_create hopts hname) trivial
  create_zvol hname _ hopts hpos hfits :=
    hostZfs_acts (host_createZvol hopts hname hpos hfits) trivial
  snapshot {s names} hnames _ := by
    have hfresh : ¬ names.any (has s.1) = true := by
      rw [List.any_eq_true]
      rintro ⟨n, hn, hthere⟩
      exact Bool.false_ne_true ((hnames n hn).2.2.symm.trans hthere)
    exact hostZfs_acts (host_snapshot.trans (if_neg hfresh)) (by decide +kernel)
  snapshot_again {s names} _ hthere := by
    have hsome : names.any (has s.1) = true := List.any_eq_true.mpr hthere
    exact .inl (hostZfs_present (host_snapshot.trans (if_pos hsome)))
  clone {s opts snap dest} hsnap _ _ _ hopts hfree := by
    have hnot : ¬ (has s.1 snap && has s.1 dest) = true := by
      rcases hfree with h | h
      · simp [show has s.1 snap = false from h]
      · simp [show has s.1 dest = false from h]
    exact hostZfs_acts ((host_clone hopts hsnap).trans (if_neg hnot)) (by decide +kernel)
  clone_again {s opts snap dest} hsnap _ _ _ hopts hthere hthere' := by
    have hboth : (has s.1 snap && has s.1 dest) = true := Bool.and_eq_true_iff.mpr ⟨hthere, hthere'⟩
    exact .inl (hostZfs_present ((host_clone hopts hsnap).trans (if_pos hboth)))
  promote _ _ := host_promote
  destroy {_ _ recursive} _ _ _ hthere :=
    hostZfs_acts ((host_destroy recursive).trans (if_pos hthere)) (by decide +kernel)
  destroy_missing {s name recursive} _ _ hmissing := by
    have hnot : ¬ has s.1 name = true := by simp [show has s.1 name = false from hmissing]
    exact .inl (hostZfs_missing ((host_destroy recursive).trans (if_neg hnot)))
  destroy_deferred _ _ _ hthere :=
    hostZfs_acts (host_destroyDeferred.trans (if_pos hthere)) (by decide +kernel)
  destroy_deferred_missing {s snap} _ _ hmissing := by
    have hnot : ¬ has s.1 snap = true := by simp [show has s.1 snap = false from hmissing]
    exact .inl (hostZfs_missing (host_destroyDeferred.trans (if_neg hnot)))
  set _ hprop _ := hostZfs_acts (host_set hprop) trivial
  ownership {s name args} hname := by
    have hne : name ≠ "zfs" := by
      rintro rfl
      exact absurd hname (by decide)
    exact congrArg (fun r : Except Failure String × Host.State => r.2.1) (if_neg hne)

end Host

end SimpleZfsCsi.Zpool
