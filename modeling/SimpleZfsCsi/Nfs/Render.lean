import SimpleZfsCsi.Library.Tokens
import SimpleZfsCsi.Nfs.Controller

/-!
# Reading the exports file back

The file has a line for each export: fields that blanks separate, a path first and then the clients
with their options. `renderExports` writes the strings of an export as they are, so a string that
has one of the characters of the format is read as something else.
-/

namespace SimpleZfsCsi.Nfs

open Library Api Text

/-! ## The format -/

/-- A client may use a path with some options. -/
structure Rule where
  path : String
  client : String
  options : List String
  deriving DecidableEq, Repr

def isBlank (c : Char) : Bool := c = ' ' ∨ c = '\t'

/-- `client(option,…)`, or a client without options. The parenthesis closes at the end of
the field. -/
def readClient (field : List Char) : Option (String × List String) :=
  let client := String.ofList (field.takeWhile (· ≠ '('))
  match field.dropWhile (· ≠ '(') with
  | [] => some (client, [])
  | _ :: rest =>
    if rest.dropWhile (· ≠ ')') = [')'] then
      some (client, split ',' (String.ofList (rest.takeWhile (· ≠ ')'))))
    else none

/-- The fields of a line up to a comment. -/
def lineFields (line : List Char) : List (List Char) :=
  ((line.takeWhile (· ≠ '#')).splitOnP isBlank).filter (· ≠ [])

def readLine (line : List Char) : List Rule :=
  match lineFields line with
  | [] => []
  | path :: clients => (clients.filterMap readClient).map fun c => ⟨String.ofList path, c.1, c.2⟩

/-- What an exports file says. -/
def readExports (text : String) : List Rule := (text.toList.splitOnP (· = '\n')).flatMap readLine

/-- The options of a client, the default ones where it has none. -/
def Client.effective (c : Client) : List String :=
  if c.options.isEmpty then defaultOptions else c.options

/-- What the exports ask for. -/
def rules (exports : List Export) : List Rule :=
  exports.flatMap fun e => e.clients.map fun c => ⟨e.path, c.client, c.effective⟩

/-! ## What can be read -/

/-- The string has none of these characters, and none that separates fields, lines or comments. -/
def PlainBut (others : List Char) (s : String) : Prop :=
  ∀ c ∈ s.toList, isBlank c = false ∧ c ≠ '\n' ∧ c ≠ '#' ∧ c ∉ others

instance (others : List Char) (s : String) : Decidable (PlainBut others s) :=
  List.decidableBAll _ _

/-- A rule whose strings the format can hold. -/
structure Rule.Plain (r : Rule) : Prop where
  path : PlainBut [] r.path
  client : PlainBut ['('] r.client
  options : ∀ o ∈ r.options, PlainBut [',', ')'] o

instance (r : Rule) : Decidable r.Plain :=
  decidable_of_iff (PlainBut [] r.path ∧ PlainBut ['('] r.client ∧
    ∀ o ∈ r.options, PlainBut [',', ')'] o)
    ⟨fun ⟨h, h', h''⟩ => ⟨h, h', h''⟩, fun ⟨h, h', h''⟩ => ⟨h, h', h''⟩⟩

/-- A field of a line. -/
theorem lineFields_plain {line field : List Char} (hline : '\n' ∉ line)
    (h : field ∈ lineFields line) :
    ∀ c ∈ field, isBlank c = false ∧ c ≠ '\n' ∧ c ≠ '#' := by
  intro c hc
  obtain ⟨hpart, -⟩ := List.mem_filter.mp h
  obtain ⟨hblank, hmem⟩ := mem_splitOnP hpart c hc
  obtain ⟨hcomment, hmem⟩ := mem_takeWhile hmem
  refine ⟨hblank, ?_, by simpa using hcomment⟩
  rintro rfl
  exact hline hmem

theorem readClient_plain {field : List Char}
    (hfield : ∀ c ∈ field, isBlank c = false ∧ c ≠ '\n' ∧ c ≠ '#')
    {client : String} {options : List String} (h : readClient field = some (client, options)) :
    PlainBut ['('] client ∧ ∀ o ∈ options, PlainBut [',', ')'] o := by
  have hclient : PlainBut ['('] (String.ofList (field.takeWhile (· ≠ '('))) := by
    intro c hc
    rw [String.toList_ofList] at hc
    obtain ⟨hopen, hmem⟩ := mem_takeWhile hc
    obtain ⟨hblank, hnewline, hcomment⟩ := hfield c hmem
    exact ⟨hblank, hnewline, hcomment, by simpa using hopen⟩
  unfold readClient at h
  split at h
  · cases h
    exact ⟨hclient, by simp⟩
  · next rest hrest =>
    split at h
    · cases h
      refine ⟨hclient, fun o ho c hc => ?_⟩
      rw [split, String.toList_ofList, List.mem_map] at ho
      obtain ⟨part, hpart, rfl⟩ := ho
      rw [String.toList_ofList] at hc
      rw [List.splitOn_eq_splitOnP] at hpart
      obtain ⟨hcomma, hmem⟩ := mem_splitOnP hpart c hc
      obtain ⟨hclose, hmem⟩ := mem_takeWhile hmem
      have hfieldmem : c ∈ field := by
        refine (List.dropWhile_suffix (· ≠ '(')).subset ?_
        rw [hrest]
        exact List.mem_cons_of_mem _ hmem
      obtain ⟨hblank, hnewline, hcomment⟩ := hfield c hfieldmem
      exact ⟨hblank, hnewline, hcomment, by simp_all⟩
    · cases h

/-- What is read is plain. -/
theorem readExports_plain {text : String} {r : Rule} (h : r ∈ readExports text) : r.Plain := by
  rw [readExports, List.mem_flatMap] at h
  obtain ⟨line, hline, hr⟩ := h
  have hnewline : '\n' ∉ line := fun hc => by simpa using (mem_splitOnP hline _ hc).1
  have hfields : ∀ field ∈ lineFields line, ∀ c ∈ field, isBlank c = false ∧ c ≠ '\n' ∧ c ≠ '#' :=
    fun _ hfield => lineFields_plain hnewline hfield
  unfold readLine at hr
  split at hr
  · cases hr
  · next path clients heq =>
    rw [heq] at hfields
    obtain ⟨⟨client, options⟩, hclient, rfl⟩ := List.mem_map.mp hr
    obtain ⟨field, hfield, hread⟩ := List.mem_filterMap.mp hclient
    obtain ⟨hc, ho⟩ := readClient_plain (hfields field (List.mem_cons_of_mem _ hfield)) hread
    refine ⟨fun c hcpath => ?_, hc, ho⟩
    obtain ⟨hb, hn, hs⟩ := hfields path List.mem_cons_self c (by simpa using hcpath)
    exact ⟨hb, hn, hs, by simp⟩

/-! ## What is written -/

/-- The field of a client. -/
def clientField (c : Client) : List Char :=
  c.client.toList ++ '(' :: ((",".intercalate c.effective).toList ++ [')'])

/-- The line of an export. -/
def exportLine (e : Export) : List Char :=
  e.path.toList ++ (e.clients.map clientField).flatMap fun field => ' ' :: field

theorem toList_renderClient (c : Client) : (renderClient c).toList = ' ' :: clientField c := by
  simp [renderClient, clientField, Client.effective]

theorem toList_renderLine (e : Export) : (renderLine e).toList = exportLine e ++ ['\n'] := by
  simp [renderLine, exportLine, List.flatMap_map, toList_renderClient]

/-- The exports in the order of the file. -/
def inOrder (exports : List Export) : List Export :=
  exports.insertionSort fun a b => a.path ≤ b.path

def header : List Char := "# Managed by simple-zfs-csi nfs-controller. DO NOT EDIT.".toList

theorem toList_header :
    "# Managed by simple-zfs-csi nfs-controller. DO NOT EDIT.\n".toList = header ++ ['\n'] := by
  decide +kernel

theorem toList_renderExports (exports : List Export) : (renderExports exports).toList =
    (header :: (inOrder exports).map exportLine).flatMap fun line => line ++ ['\n'] := by
  have hlines : (String.join ((inOrder exports).map renderLine)).toList =
      ((inOrder exports).map exportLine).flatMap fun line => line ++ ['\n'] := by
    simp only [String.toList_join, List.flatMap_map, toList_renderLine]
  unfold renderExports
  rw [String.toList_append, toList_header, List.flatMap_cons, ← hlines]
  rfl

variable {e : Export} {c : Client}

/-- The rules of an export can be read. -/
def Export.Plain (e : Export) : Prop := ∀ c ∈ e.clients, Rule.Plain ⟨e.path, c.client, c.effective⟩

theorem effective_ne_nil (c : Client) : c.effective ≠ [] := by
  unfold Client.effective
  split
  · decide
  · next h => simpa using h

theorem mem_intercalate_comma {options : List String} {a : Char}
    (h : a ∈ (",".intercalate options).toList) :
    a = ',' ∨ ∃ o ∈ options, a ∈ o.toList := by
  have hcomma : ",".toList = [','] := rfl
  rw [String.toList_intercalate, hcomma] at h
  rcases mem_intercalate h with rfl | ⟨part, hpart, ha⟩
  · exact .inl rfl
  · obtain ⟨o, ho, rfl⟩ := List.mem_map.mp hpart
    exact .inr ⟨o, ho, ha⟩

theorem readClient_field
    (hclient : PlainBut ['('] c.client) (hoptions : ∀ o ∈ c.effective, PlainBut [',', ')'] o) :
    readClient (clientField c) = some (c.client, c.effective) := by
  have hopen : ∀ a ∈ c.client.toList, decide (a ≠ '(') = true := by
    intro a ha
    simpa using (hclient a ha).2.2.2
  have hclose : ∀ a ∈ (",".intercalate c.effective).toList, decide (a ≠ ')') = true := by
    intro a ha
    rcases mem_intercalate_comma ha with rfl | ⟨o, ho, ha⟩
    · decide
    · have hplain := (hoptions o ho a ha).2.2.2
      simp_all
  have hcut : (clientField c).dropWhile (· ≠ '(') = '(' ::
      ((",".intercalate c.effective).toList ++ [')']) := by
    rw [clientField, List.dropWhile_append_of_pos hopen]
    simp
  have hsplit : split ',' (",".intercalate c.effective) = c.effective := by
    have hcomma : ",".toList = [','] := rfl
    rw [split, String.toList_intercalate, hcomma, List.splitOn_intercalate]
    · simp [Function.comp_def]
    · simp only [List.mem_map, forall_exists_index, and_imp, forall_apply_eq_imp_iff₂]
      intro o ho hmem
      simpa using (hoptions o ho _ hmem).2.2.2
    · simpa using effective_ne_nil c
  unfold readClient
  rw [hcut]
  dsimp only
  rw [List.dropWhile_append_of_pos hclose, List.takeWhile_append_of_pos hclose, clientField,
    List.takeWhile_append_of_pos hopen]
  generalize ",".intercalate c.effective = written at hsplit
  simpa using hsplit

theorem clientField_plain
    (hclient : PlainBut ['('] c.client) (hoptions : ∀ o ∈ c.effective, PlainBut [',', ')'] o) :
    ∀ a ∈ clientField c, isBlank a = false ∧ a ≠ '\n' ∧ a ≠ '#' := by
  intro a ha
  rw [clientField, List.mem_append, List.mem_cons, List.mem_append, List.mem_singleton] at ha
  rcases ha with ha | rfl | ha | rfl
  · obtain ⟨hblank, hnewline, hcomment, -⟩ := hclient a ha
    exact ⟨hblank, hnewline, hcomment⟩
  · decide
  · rcases mem_intercalate_comma ha with rfl | ⟨o, ho, ha⟩
    · decide
    · obtain ⟨hblank, hnewline, hcomment, -⟩ := hoptions o ho a ha
      exact ⟨hblank, hnewline, hcomment⟩
  · decide

/-- The line of an export that has a client. -/
theorem exportLine_plain (he : e.Plain) (hclients : e.clients ≠ []) :
    ∀ a ∈ exportLine e, a ≠ '\n' ∧ a ≠ '#' := by
  obtain ⟨first, hfirst⟩ := List.exists_mem_of_ne_nil _ hclients
  intro a ha
  rw [exportLine, List.mem_append, List.mem_flatMap] at ha
  rcases ha with ha | ⟨field, hfield, ha⟩
  · obtain ⟨-, hnewline, hcomment, -⟩ := (he first hfirst).path a ha
    exact ⟨hnewline, hcomment⟩
  · obtain ⟨c, hc, rfl⟩ := List.mem_map.mp hfield
    rcases List.mem_cons.mp ha with rfl | ha
    · decide
    · exact (clientField_plain (he c hc).client (he c hc).options a ha).2

theorem readLine_exportLine (he : e.Plain) (hpath : e.path ≠ "") (hclients : e.clients ≠ []) :
    readLine (exportLine e) = e.clients.map fun c => ⟨e.path, c.client, c.effective⟩ := by
  obtain ⟨first, hfirst⟩ := List.exists_mem_of_ne_nil _ hclients
  have hfields : lineFields (exportLine e) = e.path.toList :: e.clients.map clientField := by
    have hcomment : (exportLine e).takeWhile (· ≠ '#') = exportLine e := by
      rw [List.takeWhile_eq_self_iff]
      intro a ha
      simpa using (exportLine_plain he hclients a ha).2
    rw [lineFields, hcomment, exportLine, splitOnP_flatMap_before (by decide)]
    · rw [List.filter_eq_self]
      intro field hfield
      rcases List.mem_cons.mp hfield with rfl | hfield
      · simpa using hpath
      · obtain ⟨c, -, rfl⟩ := List.mem_map.mp hfield
        simp [clientField]
    · exact fun a ha => ((he first hfirst).path a ha).1
    · intro field hfield a ha
      obtain ⟨c, hc, rfl⟩ := List.mem_map.mp hfield
      exact (clientField_plain (he c hc).client (he c hc).options a ha).1
  have hread : (e.clients.map clientField).filterMap readClient =
      e.clients.map fun c => (c.client, c.effective) := by
    rw [List.filterMap_map, ← List.filterMap_eq_map]
    exact List.filterMap_congr fun c hc => readClient_field (he c hc).client (he c hc).options
  unfold readLine
  rw [hfields]
  dsimp only
  rw [hread, List.map_map, String.ofList_toList]
  rfl

/-- Plain exports are read as they were written. -/
theorem readExports_renderExports {exports : List Export} (hplain : ∀ e ∈ exports, e.Plain)
    (hpaths : ∀ e ∈ exports, e.path ≠ "") (hclients : ∀ e ∈ exports, e.clients ≠ []) :
    readExports (renderExports exports) = rules (inOrder exports) := by
  have hmem : ∀ e ∈ inOrder exports, e ∈ exports := fun e he => (List.mem_insertionSort _).mp he
  have hlines : ∀ line ∈ header :: (inOrder exports).map exportLine,
      ∀ a ∈ line, decide (a = '\n') = false := by
    have hheader : header.all (fun a => !decide (a = '\n')) = true := by decide +kernel
    refine List.forall_mem_cons.mpr ⟨by simpa using hheader, fun line hline a ha => ?_⟩
    obtain ⟨e, he, rfl⟩ := List.mem_map.mp hline
    simpa using (exportLine_plain (hplain e (hmem e he)) (hclients e (hmem e he)) a ha).1
  have hheader : readLine header = [] := by decide +kernel
  have hend : readLine [] = [] := rfl
  rw [readExports, toList_renderExports, splitOnP_flatMap_after (by decide) hlines,
    List.flatMap_append, List.flatMap_cons, hheader, List.nil_append, List.flatMap_map,
    List.flatMap_singleton, hend, List.append_nil, rules]
  exact List.flatMap_congr fun e he => readLine_exportLine (hplain e (hmem e he))
    (hpaths e (hmem e he))
    (hclients e (hmem e he))

/-! ## The exports of a node -/

/-- The exports file means what the exports ask for, whichever order they are listed in. -/
structure Faithful (exports : List Export) : Prop where
  means : ∀ r, r ∈ readExports (renderExports exports) ↔ r ∈ rules exports
  order : ∀ exports', exports'.Perm exports → renderExports exports' = renderExports exports

/-- Exports with distinct paths have one order in the file. -/
theorem inOrder_perm {exports exports' : List Export} (hperm : exports'.Perm exports)
    (hdistinct : (exports.map Export.path).Nodup) : inOrder exports' = inOrder exports := by
  have : IsTrans Export fun a b => a.path ≤ b.path := ⟨fun _ _ _ => le_trans⟩
  have : Std.Total fun a b : Export => a.path ≤ b.path := ⟨fun a b => le_total a.path b.path⟩
  have hsorted (l : List Export) : (inOrder l).Pairwise fun a b => a.path ≤ b.path :=
    List.pairwise_insertionSort _ l
  have hsame : (inOrder exports').Perm (inOrder exports) :=
    ((List.perm_insertionSort _ _).trans hperm).trans (List.perm_insertionSort _ _).symm
  refine hsame.eq_of_pairwise (fun a b ha hb hab hba => ?_) (hsorted exports') (hsorted exports)
  have ha' : a ∈ exports := hperm.subset ((List.mem_insertionSort _).mp ha)
  have hb' : b ∈ exports := (List.mem_insertionSort _).mp hb
  exact List.inj_on_of_nodup_map hdistinct ha' hb' (le_antisymm hab hba)

/-- What the API server lets into the spec of an export. -/
structure Valid (e : NetworkExport) : Prop where
  path : e.spec.path ≠ ""
  clients : ∀ nfs, e.spec.nfs = some nfs → ∀ c ∈ nfs.clients, c.client ≠ ""

/-- The exports file of a node means what its exports ask for just if their strings are plain. -/
theorem NFSReconciler.faithful_iff (r : NFSReconciler) {items : List NetworkExport}
    (hvalid : ∀ e ∈ items, Valid e)
    (hdistinct : ((r.desired items).map Export.path).Nodup) :
    Faithful (r.desired items) ↔ ∀ rule ∈ rules (r.desired items), rule.Plain := by
  have hdesired : ∀ e ∈ r.desired items, e.path ≠ "" ∧ e.clients ≠ [] := by
    intro e he
    obtain ⟨item, hitem, hexport⟩ := List.mem_filterMap.mp he
    have hpath := (hvalid item (List.mem_filter.mp hitem).1).path
    unfold toExport at hexport
    split at hexport
    · cases hexport
    · split at hexport
      · cases hexport
      · next hclients =>
        cases hexport
        exact ⟨hpath, by simpa using hclients⟩
  constructor
  · intro hfaithful rule hrule
    exact readExports_plain ((hfaithful.means rule).mpr hrule)
  · intro hplain
    have hexports : ∀ e ∈ r.desired items, e.Plain := fun e he c hc =>
      hplain _ (List.mem_flatMap.mpr ⟨e, he, List.mem_map.mpr ⟨c, hc, rfl⟩⟩)
    refine ⟨fun rule => ?_, fun exports' hperm => ?_⟩
    · rw [readExports_renderExports hexports (fun e he => (hdesired e he).1) fun e
        he => (hdesired e he).2]
      simp only [rules, List.mem_flatMap, inOrder, List.mem_insertionSort]
    · have horder := inOrder_perm hperm hdistinct
      unfold Nfs.renderExports
      unfold inOrder at horder
      rw [horder]

/-- An export of a directory to one node. -/
def directory (name path : String) : NetworkExport where
  metadata := { name := name, uid := 1, resourceVersion := 1 }
  spec := { nodeName := "storage-1", protocol := .nfs, path, nfs := some ⟨[⟨"10.0.0.1", []⟩]⟩ }
  status := {}

theorem directory_valid (name : String) {path : String} (hpath : path ≠ "") :
    Valid (directory name path) where
  path := hpath
  clients nfs hnfs c hc := by
    cases hnfs
    cases List.mem_singleton.mp hc
    decide

theorem NFSReconciler.faithful_two :
    Faithful (NFSReconciler.desired ⟨"storage-1", {}⟩ [directory "b" "/tank/b",
      directory "a" "/tank/a"]) := by
  refine (NFSReconciler.faithful_iff _ ?_ (by decide +kernel)).mpr (by decide +kernel)
  intro e he
  rcases List.mem_cons.mp he with rfl | he
  · exact directory_valid "b" (by decide)
  · rw [List.mem_singleton.mp he]
    exact directory_valid "a" (by decide)

/-- The path of one export has a blank: its parent directory is exported, to a host
called `data` too. -/
theorem blank_in_path : Valid (directory "a" "/tank/my data") ∧
    readExports
      (renderExports (NFSReconciler.desired ⟨"storage-1", {}⟩ [directory "a" "/tank/my data"])) =
      [⟨"/tank/my", "data", []⟩, ⟨"/tank/my", "10.0.0.1", defaultOptions⟩] ∧
    ¬ Faithful (NFSReconciler.desired ⟨"storage-1", {}⟩ [directory "a" "/tank/my data"]) := by
  refine ⟨directory_valid "a" (by decide), by decide +kernel, fun hfaithful => ?_⟩
  have hmeans :=
    (hfaithful.means ⟨"/tank/my data", "10.0.0.1", defaultOptions⟩).mpr (by decide +kernel)
  revert hmeans
  decide +kernel

end SimpleZfsCsi.Nfs
