import YinShu.ConfigImport
import YinShu.ErrorState
import YinShu.TextPieces

/-!
# Diagnostics bundles

A bundle is an archive of the log directory for a support request: a summary
that lists what the archive holds, the log files, and the report of the doctor
when there is one. Files are chosen by name, so that nothing secret leaves the
machine. The file system and the archive format are parameters that can fail at
every call; what was put into the archive before a failure stays there.
-/

set_option autoImplicit false

namespace YinShu.DiagnosticsBundle
open YinShu.ErrorState YinShu.TextScan YinShu.TextPieces YinShu.FunctionalCommand
open YinShu.ConfigImport (runtimeError)

def startupErrorFileName : String := "yinshu-startup-error.txt"
def installLogFileName : String := "install.log"

/-- The text before and after the last occurrence of a word. -/
def rsplitOnceWord (word cs : List Char) : Option (List Char × List Char) :=
  (afterFirst word.reverse cs.reverse).map
    (fun front => (front.reverse,(beforeFirst word.reverse cs.reverse).reverse))

def isLogFile (lower : List Char) : Bool :=
  ".log".toList.isSuffixOf lower ||
    (rsplitOnceWord ".log.".toList lower).any
      (fun parts => !parts.2.isEmpty && parts.2.all Char.isDigit)

/-- The part of a name that `is_collectable_diagnostic_file` looks at. -/
def lowerFileName (name : String) : List Char :=
  (name.toList.rtakeWhile (fun c => !(c == '/' || c == '\\'))).map Char.toLower

def isSecret (lower : List Char) : Bool :=
  lower == "config.json".toList || ".sqlite3".toList.isSuffixOf lower ||
    ".sqlite".toList.isSuffixOf lower || (afterFirst "password".toList lower).isSome ||
    (afterFirst "yinshu-config".toList lower).isSome

def isCollectableDiagnosticFile (name : String) : Bool :=
  let lower := lowerFileName name
  if isSecret lower then false
  else isLogFile lower || lower == startupErrorFileName.toList ||
    lower == installLogFileName.toList ||
    ("crash-".toList.isPrefixOf lower && ".txt".toList.isSuffixOf lower)

/-- An entry of a directory; `name` is absent where it is no valid text. -/
structure DirEntry where
  name : Option String
  isFile : Bool
  contents : Except String (List UInt8)

def entryName : Except String DirEntry → Option String
  | .ok entry => entry.name
  | .error _ => none

/-- What iterating over a directory yields: every name at most once. -/
structure Listing where
  entries : List (Except String DirEntry)
  distinct : (entries.filterMap entryName).Nodup

inductive ReadDir where
  | notFound
  | failed (text : String)
  | listed (listing : Listing)

/-- The entries that a directory has. -/
def ReadDir.present : ReadDir → List DirEntry
  | .notFound | .failed _ => []
  | .listed listing => listing.entries.filterMap Except.toOption

def DirEntry.isCollectable (entry : DirEntry) : Bool :=
  entry.isFile && entry.name.any isCollectableDiagnosticFile

def collectEntries : List (Except String DirEntry) → Except String (List DirEntry)
  | [] => .ok []
  | .error text::_ => .error text
  | .ok entry::rest => do
    let files ← collectEntries rest
    return if entry.isCollectable then entry::files else files

/-- Paths of one directory are compared by their last components. -/
def entryLe (a b : DirEntry) : Bool := decide (a.name.getD "" ≤ b.name.getD "")

def collectDiagnosticFiles : ReadDir → Except String (List DirEntry)
  | .notFound => .ok []
  | .failed text => .error text
  | .listed listing => (collectEntries listing.entries).map (fun files => files.mergeSort entryLe)

def crashLogFileName (unixSecs : ℕ) : String :=
  String.ofList ("crash-".toList++Nat.toDigits 10 unixSecs++".txt".toList)

structure Summary where
  product : String
  version : String
  os : String
  arch : String
  logDir : String
  files : List String

structure Host where
  defaultDiagnoseOutputPath : Except String String
  createParent : String → Except String Unit
  cliLogDir : Except String String
  readDir : String → ReadDir
  version : String
  os : String
  arch : String
  prettyJson : Summary → Except String String
  createFile : String → Except String Unit
  startFile : List String → String → Except String Unit
  writeAll : List UInt8 → Except String Unit
  finish : Except String Unit

/-- What was put into the archive so far, each entry under its name. -/
structure Archive where
  entries : List (String × List UInt8) := []
  finished : Bool := false

def Archive.names (t : Archive) : List String := t.entries.map Prod.fst

def Archive.push (t : Archive) (name : String) (contents : List UInt8) : Archive :=
  { t with entries := t.entries++[(name,contents)] }

def utf8 (text : String) : List UInt8 := text.toUTF8.toList

abbrev Bundling := EStateM CommandError Archive

def orRuntime {α : Type} (x : Except String α) : Bundling α := ofExcept (x.mapError runtimeError)

variable (host : Host)

/-- `start_file` and `write_all`; the entry stands in the archive once it is started. -/
def writeZip (name : String) (contents : List UInt8) : Bundling Unit := do
  let s ← get
  orRuntime (host.startFile s.names name)
  set (s.push name [])
  orRuntime (host.writeAll contents)
  set (s.push name contents)

def writeFiles : List DirEntry → Bundling Unit
  | [] => pure ()
  | file::files => do
    let name ← orRuntime (match file.name with
      | some name => .ok name
      | none => .error "diagnostic file name is invalid")
    let bytes ← orRuntime file.contents
    writeZip host name bytes
    writeFiles files

def writeDoctor : Option String → Bundling Unit
  | some doctorJson => writeZip host "doctor.json" (utf8 doctorJson)
  | none => pure ()

/-- The entries of a bundle, one after the other. -/
def writeEntries (text : String) (files : List DirEntry) (doctorJson : Option String) :
    Bundling Unit := do
  writeZip host "summary.json" (utf8 text)
  writeFiles host files
  writeDoctor host doctorJson

def archiveNames (files : List DirEntry) (doctorJson : Option String) : List String :=
  "summary.json"::(files.filterMap DirEntry.name).mergeSort (fun a b => decide (a ≤ b))++
    (doctorJson.map (fun _ => "doctor.json")).toList

def summaryOf (logDir : String) (names : List String) : Summary :=
  ⟨"yinshu",host.version,host.os,host.arch,logDir,names⟩

def outputPath : Option String → Bundling String
  | some path => pure path
  | none => orRuntime host.defaultDiagnoseOutputPath

def writeDiagnosticsBundle (output doctorJson : Option String) : Bundling String := do
  let output ← outputPath host output
  orRuntime (host.createParent output)
  let logDir ← orRuntime host.cliLogDir
  let files ← orRuntime (collectDiagnosticFiles (host.readDir logDir))
  let summary := summaryOf host logDir (archiveNames files doctorJson)
  orRuntime (host.createFile output)
  let text ← orRuntime (host.prettyJson summary)
  writeEntries host text files doctorJson
  orRuntime host.finish
  modify (fun s => { s with finished := true })
  return output

section Names

theorem crashLogFileName_toList (unixSecs : ℕ) : (crashLogFileName unixSecs).toList =
    "crash-".toList++Nat.toDigits 10 unixSecs++".txt".toList :=
  String.toList_ofList

theorem mem_crashLog {c : Char} {unixSecs : ℕ} (h : c ∈ (crashLogFileName unixSecs).toList) :
    c ∈ "crash-.txt".toList ∨ c.isDigit = true := by
  rw [crashLogFileName_toList] at h
  rcases List.mem_append.mp h with h | h
  · rcases List.mem_append.mp h with h | h
    · exact Or.inl (List.mem_append_left ".txt".toList h)
    · exact Or.inr (Nat.isDigit_of_mem_toDigits (by decide) (by decide) h)
  · exact Or.inl (List.mem_append_right "crash-".toList h)

theorem lowerFileName_crashLog (unixSecs : ℕ) :
    lowerFileName (crashLogFileName unixSecs) = (crashLogFileName unixSecs).toList := by
  have hplain : ∀ c ∈ "crash-.txt".toList, c ≠ '/' ∧ c ≠ '\\' ∧ c.toLower = c := by
    have hall : "crash-.txt".toList.all
        (fun c => c != '/' && c != '\\' && c.toLower == c) = true := by decide
    intro c hc
    simpa [and_assoc] using List.all_eq_true.mp hall c hc
  have hchar : ∀ c ∈ (crashLogFileName unixSecs).toList, c ≠ '/' ∧ c ≠ '\\' ∧ c.toLower = c := by
    intro c hc
    rcases mem_crashLog hc with hc | hc
    · exact hplain c hc
    · refine ⟨?_,?_,toLower_of_isDigit hc⟩ <;> rintro rfl <;> cases hc
  unfold lowerFileName
  rw [List.rtakeWhile_eq_self_iff.mpr (fun c hc => by
    simpa using ⟨(hchar c hc).1,(hchar c hc).2.1⟩)]
  calc (crashLogFileName unixSecs).toList.map Char.toLower
      = (crashLogFileName unixSecs).toList.map id :=
        List.map_congr_left (fun c hc => (hchar c hc).2.2)
    _ = (crashLogFileName unixSecs).toList := List.map_id _

/-- A word with a letter that no crash log has is nowhere in its name. -/
theorem word_not_in_crashLog {word : List Char} {c : Char} (unixSecs : ℕ) (hc : c ∈ word)
    (hplain : c ∉ "crash-.txt".toList) (hdigit : c.isDigit = false) :
    ¬ word <:+: (crashLogFileName unixSecs).toList := by
  intro h
  rcases mem_crashLog (h.subset hc) with hm | hm
  · exact hplain hm
  · exact Bool.false_ne_true (hdigit.symm.trans hm)

theorem crashLog_not_secret (unixSecs : ℕ) :
    isSecret (crashLogFileName unixSecs).toList = false := by
  have hconfig : ¬ "config.json".toList <:+: (crashLogFileName unixSecs).toList :=
    word_not_in_crashLog unixSecs (by decide : 'o' ∈ _) (by decide) (by decide)
  have hsqlite3 : ¬ ".sqlite3".toList <:+: (crashLogFileName unixSecs).toList :=
    word_not_in_crashLog unixSecs (by decide : 'q' ∈ _) (by decide) (by decide)
  have hsqlite : ¬ ".sqlite".toList <:+: (crashLogFileName unixSecs).toList :=
    word_not_in_crashLog unixSecs (by decide : 'q' ∈ _) (by decide) (by decide)
  have hpassword : ¬ "password".toList <:+: (crashLogFileName unixSecs).toList :=
    word_not_in_crashLog unixSecs (by decide : 'p' ∈ _) (by decide) (by decide)
  have hyinshu : ¬ "yinshu-config".toList <:+: (crashLogFileName unixSecs).toList :=
    word_not_in_crashLog unixSecs (by decide : 'y' ∈ _) (by decide) (by decide)
  rw [Bool.eq_false_iff]
  intro h
  simp only [isSecret,Bool.or_eq_true,beq_iff_eq,List.isSuffixOf_iff_suffix,
    afterFirst_none.mpr hpassword,afterFirst_none.mpr hyinshu,Option.isSome_none,
    Bool.false_eq_true,or_false] at h
  rcases h with (h | h) | h
  · exact hconfig (h ▸ List.infix_rfl)
  · exact hsqlite3 h.isInfix
  · exact hsqlite h.isInfix

/-- A crash log is part of every later bundle, whenever the crash was. -/
theorem crashLog_collectable (unixSecs : ℕ) :
    isCollectableDiagnosticFile (crashLogFileName unixSecs) = true := by
  have hstart : "crash-".toList.isPrefixOf (crashLogFileName unixSecs).toList = true := by
    rw [List.isPrefixOf_iff_prefix,crashLogFileName_toList,List.append_assoc]
    exact List.prefix_append _ _
  have hend : ".txt".toList.isSuffixOf (crashLogFileName unixSecs).toList = true := by
    rw [List.isSuffixOf_iff_suffix,crashLogFileName_toList]
    exact List.suffix_append _ _
  simp only [isCollectableDiagnosticFile,crashLog_not_secret,lowerFileName_crashLog,hstart,hend]
  simp

theorem not_secret_of_collectable {name : String} (h : isCollectableDiagnosticFile name = true) :
    isSecret (lowerFileName name) = false := by
  by_contra hs
  simp [isCollectableDiagnosticFile,hs] at h

end Names

section Files

theorem collectEntries_ok {entries : List (Except String DirEntry)} {files : List DirEntry}
    (h : collectEntries entries = .ok files) :
    files = (entries.filterMap Except.toOption).filter DirEntry.isCollectable := by
  induction entries generalizing files with
  | nil =>
    cases h
    rfl
  | cons entry entries ih =>
    cases entry with
    | error text => cases h
    | ok entry =>
      cases hrest : collectEntries entries with
      | error text => simp [collectEntries,hrest,Bind.bind,Except.bind] at h
      | ok rest =>
        simp only [collectEntries,hrest,Bind.bind,Except.bind,Pure.pure,Except.pure] at h
        rw [← Except.ok.inj h,ih hrest]
        by_cases hc : entry.isCollectable <;> simp [Except.toOption,hc]

variable {dir : ReadDir} {files : List DirEntry}

theorem collected_eq (h : collectDiagnosticFiles dir = .ok files) :
    files = (dir.present.filter DirEntry.isCollectable).mergeSort entryLe := by
  cases dir with
  | notFound =>
    cases h
    exact List.mergeSort_nil.symm
  | failed text => cases h
  | listed listing =>
    simp only [collectDiagnosticFiles] at h
    cases hraw : collectEntries listing.entries with
    | error text => simp [hraw,Except.map] at h
    | ok raw =>
      simp only [hraw,Except.map,Except.ok.injEq] at h
      rw [← h,collectEntries_ok hraw]
      rfl

theorem mem_collected (h : collectDiagnosticFiles dir = .ok files) {file : DirEntry} :
    file ∈ files ↔ file ∈ dir.present ∧ file.isCollectable = true := by
  rw [collected_eq h,(List.mergeSort_perm _ _).mem_iff,List.mem_filter]

theorem present_distinct (dir : ReadDir) : (dir.present.filterMap DirEntry.name).Nodup := by
  cases dir with
  | notFound | failed text => exact List.nodup_nil
  | listed listing =>
    have hnames : (fun entry => (Except.toOption entry).bind DirEntry.name) = entryName := by
      funext entry
      cases entry <;> rfl
    rw [ReadDir.present,List.filterMap_filterMap,hnames]
    exact listing.distinct

theorem collected_names_nodup (h : collectDiagnosticFiles dir = .ok files) :
    (files.filterMap DirEntry.name).Nodup := by
  have hperm := (List.mergeSort_perm (dir.present.filter DirEntry.isCollectable) entryLe).filterMap
    DirEntry.name
  rw [collected_eq h,hperm.nodup_iff]
  exact (List.filter_sublist.filterMap DirEntry.name).nodup (present_distinct dir)

theorem entryLe_trans (a b c : DirEntry) (hab : entryLe a b = true) (hbc : entryLe b c = true) :
    entryLe a c = true := by
  simp only [entryLe,decide_eq_true_eq] at *
  exact String.le_trans hab hbc

theorem entryLe_total (a b : DirEntry) : (entryLe a b || entryLe b a) = true := by
  simp only [entryLe,Bool.or_eq_true,decide_eq_true_eq]
  exact String.le_total _ _

theorem collected_names_sorted (h : collectDiagnosticFiles dir = .ok files) :
    (files.filterMap DirEntry.name).Pairwise (· ≤ ·) := by
  have hsorted := List.pairwise_mergeSort
    entryLe_trans entryLe_total (dir.present.filter DirEntry.isCollectable)
  rw [collected_eq h,List.pairwise_filterMap]
  refine hsorted.imp ?_
  intro a b hab x hx y hy
  simpa [entryLe,hx,hy] using hab

end Files

section Writing

variable {files : List DirEntry} {doctorJson : Option String} {s : Archive}

@[simp] theorem push_names (name : String) (contents : List UInt8) :
    (s.push name contents).names = s.names++[name] := by
  simp [Archive.push,Archive.names]

theorem orRuntime_rule {α : Type} (x : Except String α) :
    Ensures (orRuntime x) s (fun a t => x = .ok a ∧ t = s) (fun _ t => t = s) := by
  cases x with
  | ok a => exact ⟨rfl,rfl⟩
  | error text => exact rfl

theorem writeZip_rule (name : String) (contents : List UInt8) :
    Ensures (writeZip host name contents) s (fun _ t => t = s.push name contents)
      (fun _ t => t = s ∨ t = s.push name []) := by
  refine ensures_get_bind (Ensures.bind (orRuntime_rule _) ?_ (fun _ _ h => Or.inl h))
  rintro ⟨⟩ _ ⟨_,rfl⟩
  refine ensures_modify_bind (Ensures.bind (orRuntime_rule _) ?_ (fun _ _ h => Or.inr h))
  rintro ⟨⟩ _ _
  exact ensures_modify rfl

/-- Files are archived one after the other, up to the first that cannot be. -/
theorem writeFiles_rule : Ensures (writeFiles host files) s
    (fun _ t => ∃ logs : List (String × List UInt8),
      files.map (fun file => (file.name,file.contents)) =
        logs.map (fun log => (some log.1,.ok log.2)) ∧
      t = { s with entries := s.entries++logs })
    (fun _ t => t.finished = s.finished ∧
      ∃ done, done <+: files.filterMap DirEntry.name ∧ t.names = s.names++done) := by
  induction files generalizing s with
  | nil => exact ensures_pure ⟨[],rfl,by simp⟩
  | cons file files ih =>
    have hnone : ∀ t, t = s → t.finished = s.finished ∧
        ∃ done, done <+: (file::files).filterMap DirEntry.name ∧ t.names = s.names++done := by
      rintro t rfl
      exact ⟨rfl,[],List.nil_prefix,(List.append_nil _).symm⟩
    refine Ensures.bind (orRuntime_rule _) ?_ (fun _ t h => hnone t h)
    rintro name _ ⟨hname,rfl⟩
    have hname : file.name = some name := by
      cases hn : file.name <;> simp_all
    refine Ensures.bind (orRuntime_rule _) ?_ (fun _ t h => hnone t h)
    rintro bytes t ⟨hbytes,rfl⟩
    refine Ensures.bind (writeZip_rule host name bytes) ?_ ?_
    · rintro ⟨⟩ u rfl
      refine ih.mono ?_ ?_
      · rintro ⟨⟩ u ⟨logs,hlogs,rfl⟩
        exact ⟨(name,bytes)::logs,by simp [hname,hbytes,hlogs],by simp [Archive.push]⟩
      · rintro error u ⟨hf,done,hdone,hu⟩
        refine ⟨hf,name::done,?_,by simp [hu]⟩
        simpa [hname] using hdone
    · rintro error u (rfl | rfl)
      · exact hnone u rfl
      · exact ⟨rfl,[name],by simp [hname],by simp⟩

theorem writeDoctor_rule : Ensures (writeDoctor host doctorJson) s
    (fun _ t => t = { s with entries := s.entries++
      (doctorJson.map (fun json => ("doctor.json",utf8 json))).toList })
    (fun _ t => t.finished = s.finished ∧
      ∃ done, done <+: (doctorJson.map (fun _ => "doctor.json")).toList ∧
        t.names = s.names++done) := by
  cases doctorJson with
  | none => exact ensures_pure (by simp)
  | some json =>
    refine (writeZip_rule host "doctor.json" (utf8 json)).mono (fun _ t h => h) ?_
    rintro error t (rfl | rfl)
    · exact ⟨rfl,[],List.nil_prefix,(List.append_nil _).symm⟩
    · exact ⟨rfl,["doctor.json"],List.prefix_rfl,by simp⟩

theorem logs_of_files {logs : List (String × List UInt8)}
    (h : files.map (fun file => (file.name,file.contents)) =
      logs.map (fun log => (some log.1,.ok log.2))) :
    files.filterMap DirEntry.name = logs.map Prod.fst ∧
    ∀ name bytes, (name,bytes) ∈ logs ↔
      ∃ file ∈ files, file.name = some name ∧ file.contents = .ok bytes := by
  constructor
  · simpa [List.filterMap_map,Function.comp_def] using congrArg (List.filterMap Prod.fst) h
  · intro name bytes
    have hin : (name,bytes) ∈ logs ↔ (some name,(.ok bytes : Except String (List UInt8))) ∈
        logs.map (fun log => (some log.1,.ok log.2)) := by
      simp
    rw [hin,← h]
    simp

/-- The names of a bundle whose entries were written up to some point. -/
theorem writeEntries_rule (text : String) : Ensures (writeEntries host text files doctorJson) {}
    (fun _ t => t.finished = false ∧ ∃ logs : List (String × List UInt8),
      t.entries = ("summary.json",utf8 text)::logs++
        (doctorJson.map (fun json => ("doctor.json",utf8 json))).toList ∧
      files.filterMap DirEntry.name = logs.map Prod.fst ∧
      ∀ name bytes, (name,bytes) ∈ logs ↔
        ∃ file ∈ files, file.name = some name ∧ file.contents = .ok bytes)
    (fun _ t => t.finished = false ∧ t.names <+: "summary.json"::files.filterMap DirEntry.name++
      (doctorJson.map (fun _ => "doctor.json")).toList) := by
  refine Ensures.bind (writeZip_rule host "summary.json" (utf8 text)) ?_ ?_
  · rintro ⟨⟩ t rfl
    refine Ensures.bind (writeFiles_rule host) ?_ ?_
    · rintro ⟨⟩ t ⟨logs,hlogs,rfl⟩
      obtain ⟨hnames,hmem⟩ := logs_of_files hlogs
      refine (writeDoctor_rule host).mono ?_ ?_
      · rintro ⟨⟩ t rfl
        exact ⟨rfl,logs,by simp [Archive.push],hnames,hmem⟩
      · rintro error t ⟨hf,done,hdone,ht⟩
        refine ⟨hf,?_⟩
        rw [ht,hnames]
        simpa [Archive.names,Archive.push] using hdone
    · rintro error t ⟨hf,done,hdone,ht⟩
      refine ⟨hf,?_⟩
      have hpart := hdone.trans (List.prefix_append _
        (doctorJson.map (fun _ => "doctor.json")).toList)
      rw [ht]
      simpa [Archive.names,Archive.push] using hpart
  · rintro error t (rfl | rfl)
    · exact ⟨rfl,List.nil_prefix⟩
    · exact ⟨rfl,by simp [Archive.names,Archive.push]⟩

end Writing

section Bundle

variable {files : List DirEntry} {doctorJson : Option String}

/-- No two entries share a name, and no name is one of a secret. -/
def Discreet (t : Archive) : Prop :=
  t.names.Nodup ∧ ∀ name ∈ t.names, isSecret (lowerFileName name) = false

/-- The summary lists the archive; the rest of it are the collectable files of the
directory, each whole and in the order of their names, and the report. -/
def Complete (logDir : String) (doctorJson : Option String) (t : Archive) : Prop :=
  t.finished = true ∧ ∃ text logs, host.prettyJson (summaryOf host logDir t.names) = .ok text ∧
    t.entries = ("summary.json",utf8 text)::logs++
      (doctorJson.map (fun json => ("doctor.json",utf8 json))).toList ∧
    (logs.map Prod.fst).Pairwise (· ≤ ·) ∧
    ∀ name bytes, (name,bytes) ∈ logs ↔ ∃ entry ∈ (host.readDir logDir).present,
      entry.isFile = true ∧ entry.name = some name ∧
        isCollectableDiagnosticFile name = true ∧ entry.contents = .ok bytes

theorem archiveNames_eq {dir : ReadDir} (doctorJson : Option String)
    (h : collectDiagnosticFiles dir = .ok files) :
    archiveNames files doctorJson = "summary.json"::files.filterMap DirEntry.name++
      (doctorJson.map (fun _ => "doctor.json")).toList := by
  have hsorted : (files.filterMap DirEntry.name).mergeSort (fun a b => decide (a ≤ b)) =
      files.filterMap DirEntry.name :=
    List.mergeSort_of_pairwise ((collected_names_sorted h).imp decide_eq_true)
  rw [archiveNames,hsorted]

theorem collectable_of_mem {dir : ReadDir} (h : collectDiagnosticFiles dir = .ok files)
    {name : String} (hn : name ∈ files.filterMap DirEntry.name) :
    isCollectableDiagnosticFile name = true := by
  obtain ⟨file,hfile,hname⟩ := List.mem_filterMap.mp hn
  have hcollectable := ((mem_collected h).mp hfile).2
  simp only [DirEntry.isCollectable,hname,Option.any_some,Bool.and_eq_true] at hcollectable
  exact hcollectable.2

theorem discreet_of_names {dir : ReadDir} (h : collectDiagnosticFiles dir = .ok files)
    {t : Archive} (ht : t.names <+: archiveNames files doctorJson) : Discreet t := by
  have hown : ∀ name ∈ ["summary.json","doctor.json"],
      isCollectableDiagnosticFile name = false ∧ isSecret (lowerFileName name) = false := by
    decide +kernel
  have hdoctor : ∀ name ∈ (doctorJson.map (fun _ => "doctor.json")).toList,
      name = "doctor.json" := by
    cases doctorJson <;> simp
  rw [archiveNames_eq doctorJson h] at ht
  refine ⟨ht.sublist.nodup ?_,fun name hn => ?_⟩
  · have hsummary : "summary.json" ∉ files.filterMap DirEntry.name := fun hm =>
      Bool.false_ne_true ((hown _ (by simp)).1.symm.trans (collectable_of_mem h hm))
    have hreport : "doctor.json" ∉ files.filterMap DirEntry.name := fun hm =>
      Bool.false_ne_true ((hown _ (by simp)).1.symm.trans (collectable_of_mem h hm))
    cases doctorJson with
    | none =>
      rw [Option.map_none,Option.toList_none,List.append_nil,List.nodup_cons]
      exact ⟨hsummary,collected_names_nodup h⟩
    | some json =>
      rw [List.cons_append,List.nodup_cons]
      refine ⟨by simpa using hsummary,List.nodup_append.mpr ⟨collected_names_nodup h,by simp,?_⟩⟩
      rintro name hname other ho rfl
      rw [hdoctor name ho] at hname
      exact hreport hname
  · rcases List.mem_append.mp (ht.subset hn) with hn | hn
    · rcases List.mem_cons.mp hn with rfl | hn
      · exact (hown _ (by simp)).2
      · exact not_secret_of_collectable (collectable_of_mem h hn)
    · rw [hdoctor name hn]
      exact (hown _ (by simp)).2

theorem held_iff {dir : ReadDir} (h : collectDiagnosticFiles dir = .ok files) {name : String}
    {bytes : List UInt8} :
    (∃ file ∈ files, file.name = some name ∧ file.contents = .ok bytes) ↔
      ∃ entry ∈ dir.present, entry.isFile = true ∧ entry.name = some name ∧
        isCollectableDiagnosticFile name = true ∧ entry.contents = .ok bytes := by
  constructor
  · rintro ⟨file,hfile,hname,hbytes⟩
    obtain ⟨hpresent,hcollectable⟩ := (mem_collected h).mp hfile
    simp only [DirEntry.isCollectable,hname,Option.any_some,Bool.and_eq_true] at hcollectable
    exact ⟨file,hpresent,hcollectable.1,hname,hcollectable.2,hbytes⟩
  · rintro ⟨file,hpresent,hisFile,hname,hcollectable,hbytes⟩
    refine ⟨file,(mem_collected h).mpr ⟨hpresent,?_⟩,hname,hbytes⟩
    simp [DirEntry.isCollectable,hname,hisFile,hcollectable]

end Bundle

end YinShu.DiagnosticsBundle
