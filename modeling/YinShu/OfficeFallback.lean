import Mathlib.Data.List.ReduceOption
import YinShu.FallbackChain
import YinShu.OfficeConversion
import YinShu.TextPieces

/-!
# The office converters of Windows

Microsoft Office, WPS Office and LibreOffice are considered in this order. A
program that is not there, or that says by its exit code and its error output
that it cannot be used, hands over to the next one; any other failure ends the
conversion. The list of considered converters is history; no step reads it.
-/

set_option autoImplicit false

namespace YinShu.OfficeFallback
open YinShu.ErrorState YinShu.FileStore YinShu.TempFile YinShu.Document YinShu.OfficeConversion
open YinShu.TextScan YinShu.TextPieces YinShu.FallbackChain

inductive Provider where
  | microsoft
  | wps
  deriving DecidableEq, Repr

def converterName : Provider → OfficeFormat → String
  | .microsoft,.docx => "Microsoft Word"
  | .microsoft,.xlsx => "Microsoft Excel"
  | .microsoft,.pptx => "Microsoft PowerPoint"
  | .wps,.docx => "WPS Writer"
  | .wps,.xlsx => "WPS Spreadsheets"
  | .wps,.pptx => "WPS Presentation"

def libreOffice : String := "LibreOffice"

def unavailableMarker : String := "YINSHU_CONVERTER_UNAVAILABLE:"

/-- What a finished process leaves, with its output read as text. -/
structure Output where
  code : Option ℤ
  success : Bool
  status : String
  stdout : String
  stderr : String

inductive Execution where
  | notFound
  | io (error : String)
  | timedOut
  | exited (output : Output)

/-- A run of a converter, and what it wrote to the output path. -/
structure Run where
  execution : Execution
  written : Option Bytes

structure WindowsHost where
  provider : Provider → Run
  libreOffice : Option Run
  profile : Option String

structure Session where
  files : Store TempPath
  considered : List String := []

abbrev Convert := EStateM OfficeConvertError Session

variable (office : OfficeHost) (host : WindowsHost) (outputPath : TempPath)
  (format : OfficeFormat)

def executeConverterCommand (converter : String) : Execution → Except OfficeConvertError Output
  | .notFound => .error (.converterUnavailable converter "executable not found")
  | .io error => .error (.io error)
  | .timedOut => .error (.timedOut converter 120)
  | .exited output => .ok output

def truncateMessage (value : String) : String := String.ofList (value.toList.take 2048)

def commandFailed (converter : String) (output : Output) : OfficeConvertError :=
  let stderr := trim output.stderr
  let stdout := trim output.stdout
  let message := if stderr ≠ "" then stderr
    else if stdout ≠ "" then stdout
    else "process exited with "++output.status
  .commandFailed converter (truncateMessage message)

def failureFromExit (code : Option ℤ) (converter stderr : String) : Option OfficeConvertError :=
  if code ≠ some 2 then none
  else
    let reason := ((lines stderr.toList).findSome? (fun line =>
      stripStart unavailableMarker.toList (trimChars line))).map trimChars
    some (.converterUnavailable converter
      ((reason.filter (fun reason => !reason.isEmpty)).elim "COM converter unavailable"
        String.ofList))

def failureFromOutput (output : Output) (converter : String) : OfficeConvertError :=
  (failureFromExit output.code converter output.stderr).getD (commandFailed converter output)

def withUnavailableContext (error : OfficeConvertError) (unavailable : List String) :
    OfficeConvertError :=
  if unavailable = [] then error else .fallbackFailed error ("; ".intercalate unavailable)

def consider (converter : String) : Convert PUnit :=
  modify (fun s => { s with considered := s.considered++[converter] })

def execute (converter : String) (run : Run) : Convert Output := do
  modify (fun s => { s with files := s.files.leave outputPath run.written })
  ofExcept (executeConverterCommand converter run.execution)

def convertWithProvider (provider : Provider) : Convert String := do
  let converter := converterName provider format
  consider converter
  let output ← execute outputPath converter (host.provider provider)
  if output.success then do
    ofExcept (validatePdf office (← get).files outputPath converter)
    pure converter
  else throw (failureFromOutput output converter)

/-- `libreoffice::convert`. -/
def convertWithLibreOffice : Convert String := do
  consider libreOffice
  match host.libreOffice with
  | none => throw (.converterUnavailable libreOffice "executable not found")
  | some run =>
    match host.profile with
    | some error => throw (.io error)
    | none =>
      let output ← execute outputPath libreOffice run
      if output.success then pure libreOffice else throw (commandFailed libreOffice output)

def tryProvider (unavailable : List String) (provider : Provider) :
    Convert (Except String String) := do
  match ← attempt (convertWithProvider office host outputPath format provider) with
  | .ok converter => pure (.ok converter)
  | .error (.converterUnavailable converter reason) =>
    pure (.error (OfficeConvertError.converterUnavailable converter reason).message)
  | .error error => throw (withUnavailableContext error unavailable)

def fallBackToLibreOffice (unavailable : List String) : Convert String := do
  match ← attempt (convertWithLibreOffice host outputPath) with
  | .ok converter =>
    match validatePdf office (← get).files outputPath converter with
    | .ok _ => pure converter
    | .error error => throw (withUnavailableContext error unavailable)
  | .error (.converterUnavailable converter reason) =>
    throw (.convertersUnavailable ("; ".intercalate
      (unavailable++[(OfficeConvertError.converterUnavailable converter reason).message])))
  | .error error => throw (withUnavailableContext error unavailable)

def convert : Convert String := do
  match ← firstOf (tryProvider office host outputPath format) [.microsoft,.wps] [] with
  | .ok (converter,_) => pure converter
  | .error unavailable => fallBackToLibreOffice office host outputPath unavailable

/-- The reason for which a run hands over to the next converter. -/
def Execution.refusal (converter : String) : Execution → Option String
  | .notFound =>
    some (OfficeConvertError.converterUnavailable converter "executable not found").message
  | .exited output =>
    if output.success then none
    else (failureFromExit output.code converter output.stderr).map OfficeConvertError.message
  | .io _ | .timedOut => none

def providerRefusal (provider : Provider) : Option String :=
  (host.provider provider).execution.refusal (converterName provider format)

def libreOfficeRefusal : Option String :=
  match host.libreOffice with
  | none => some (OfficeConvertError.converterUnavailable libreOffice
      "executable not found").message
  | some run =>
    if host.profile.isSome then none
    else match run.execution with
      | .exited _ => none
      | execution => execution.refusal libreOffice

def converters : List String :=
  [.microsoft,.wps].map (fun provider => converterName provider format)++[libreOffice]

def refusals : List (Option String) :=
  [.microsoft,.wps].map (providerRefusal host format)++[libreOfficeRefusal host]

/-- How many converters refuse before one is willing. -/
def refusing : ℕ := ((refusals host format).takeWhile Option.isSome).length

section Rules

variable {office host outputPath format} {s t : Session} {unavailable : List String}

def Declines (e : OfficeConvertError) : Prop := ∃ converter reason,
  e = .converterUnavailable converter reason

def Valid (office : OfficeHost) (outputPath : TempPath) (converter : String) (s : Session) : Prop :=
  validatePdf office s.files outputPath converter = .ok ()

/-- A failure of a converter, which is a refusal exactly when there is a reason for it. -/
def FailsBy (refusal : Option String) (e : OfficeConvertError) : Prop :=
  match refusal with
  | some reason => Declines e ∧ e.message = reason
  | none => ¬Declines e

theorem validatePdf_error {files : Store TempPath} {converter : String} {e : OfficeConvertError}
    (h : validatePdf office files outputPath converter = .error e) : ¬Declines e := by
  unfold validatePdf at h
  rintro ⟨c,r,rfl⟩
  split at h
  · split_ifs at h
    cases h
  · cases h

theorem failureFromExit_declines {code : Option ℤ} {converter stderr : String}
    {e : OfficeConvertError} (h : failureFromExit code converter stderr = some e) : Declines e := by
  unfold failureFromExit at h
  split_ifs at h
  cases h
  exact ⟨_,_,rfl⟩

theorem executed_error {converter : String} {execution : Execution} {e : OfficeConvertError}
    (h : executeConverterCommand converter execution = .error e) :
    FailsBy (execution.refusal converter) e := by
  cases execution with
  | notFound =>
    cases h
    exact ⟨⟨_,_,rfl⟩,rfl⟩
  | exited output => cases h
  | _ =>
    cases h
    rintro ⟨_,_,⟨⟩⟩

theorem failed_output {converter : String} {output : Output} (hs : output.success = false) :
    FailsBy ((Execution.exited output).refusal converter) (failureFromOutput output converter) := by
  simp only [Execution.refusal,hs,Bool.false_eq_true,if_false,failureFromOutput]
  cases hf : failureFromExit output.code converter output.stderr with
  | some e => exact ⟨failureFromExit_declines hf,rfl⟩
  | none =>
    rintro ⟨_,_,⟨⟩⟩

theorem execute_rule (converter : String) (run : Run) (s : Session) :
    Ensures (execute outputPath converter run) s
      (fun output t => run.execution = .exited output ∧ t.considered = s.considered)
      (fun e t => FailsBy (run.execution.refusal converter) e ∧
        (∀ output, run.execution ≠ .exited output) ∧ t.considered = s.considered) := by
  refine ensures_modify_bind ((ofExcept_rule _ _).mono ?_ ?_)
  · rintro output t ⟨he,rfl⟩
    refine ⟨?_,rfl⟩
    cases hx : run.execution <;> rw [hx] at he <;> cases he
    rfl
  · rintro e t ⟨he,rfl⟩
    refine ⟨executed_error he,?_,rfl⟩
    rintro output ho
    rw [ho] at he
    cases he

theorem convertWithProvider_rule (provider : Provider) (s : Session) :
    Ensures (convertWithProvider office host outputPath format provider) s
      (fun converter t => providerRefusal host format provider = none ∧
        converter = converterName provider format ∧ Valid office outputPath converter t ∧
        t.considered = s.considered++[converterName provider format])
      (fun e t => FailsBy (providerRefusal host format provider) e ∧
        t.considered = s.considered++[converterName provider format]) := by
  refine ensures_modify_bind ((execute_rule _ _ _).bind ?_ (fun _ _ h => ⟨h.1,h.2.2⟩))
  rintro output t ⟨hx,ht⟩
  cases hs : output.success with
  | false =>
    refine ensures_throw ⟨?_,ht⟩
    rw [providerRefusal,hx]
    exact failed_output hs
  | true =>
    have hr : providerRefusal host format provider = none := by
      simp [providerRefusal,hx,Execution.refusal,hs]
    refine ensures_get_bind ((ofExcept_rule _ t).bind ?_ ?_)
    · rintro ⟨⟩ t ⟨hv,rfl⟩
      exact ensures_pure ⟨hr,rfl,hv,ht⟩
    · rintro e t ⟨hv,rfl⟩
      rw [hr]
      exact ⟨validatePdf_error hv,ht⟩

theorem convertWithLibreOffice_rule (s : Session) :
    Ensures (convertWithLibreOffice host outputPath) s
      (fun converter t => libreOfficeRefusal host = none ∧ converter = libreOffice ∧
        t.considered = s.considered++[libreOffice])
      (fun e t => FailsBy (libreOfficeRefusal host) e ∧
        t.considered = s.considered++[libreOffice]) := by
  refine ensures_modify_bind ?_
  unfold libreOfficeRefusal
  cases hl : host.libreOffice with
  | none => exact ensures_throw ⟨⟨⟨_,_,rfl⟩,rfl⟩,rfl⟩
  | some run =>
    cases hp : host.profile with
    | some error =>
      refine ensures_throw ⟨?_,rfl⟩
      simp only [Option.isSome_some,if_true,FailsBy]
      rintro ⟨_,_,⟨⟩⟩
    | none =>
      simp only [Option.isSome_none,Bool.false_eq_true,if_false]
      refine (execute_rule libreOffice run _).bind ?_ ?_
      · rintro output t ⟨hx,ht⟩
        rw [hx]
        cases hs : output.success with
        | true => exact ensures_pure ⟨rfl,rfl,ht⟩
        | false =>
          refine ensures_throw ⟨?_,ht⟩
          rintro ⟨_,_,⟨⟩⟩
      · rintro e t ⟨hf,hx,ht⟩
        refine ⟨?_,ht⟩
        split
        · rename_i output ho
          exact absurd ho (hx output)
        · exact hf

theorem tryProvider_rule (provider : Provider) (s : Session) :
    Ensures (tryProvider office host outputPath format unavailable provider) s
      (fun result t => t.considered = s.considered++[converterName provider format] ∧
        match result with
        | .ok converter => providerRefusal host format provider = none ∧
          converter = converterName provider format ∧ Valid office outputPath converter t
        | .error reason => providerRefusal host format provider = some reason)
      (fun e t => t.considered = s.considered++[converterName provider format] ∧
        providerRefusal host format provider = none ∧
        ∃ source, ¬Declines source ∧ e = withUnavailableContext source unavailable) := by
  refine ((convertWithProvider_rule provider s).attempt_ended).bind ?_ (by simp)
  rintro (e|converter) t ht
  · obtain ⟨hf,hc⟩ := ht
    cases hr : providerRefusal host format provider with
    | some reason =>
      rw [hr] at hf
      obtain ⟨⟨name,why,rfl⟩,rfl⟩ := hf
      exact ensures_pure ⟨hc,rfl⟩
    | none =>
      rw [hr] at hf
      split
      · rename_i h
        cases h
      · rename_i h
        cases h
        exact absurd ⟨_,_,rfl⟩ hf
      · rename_i error _ h
        cases h
        exact ensures_throw ⟨hc,rfl,_,hf,rfl⟩
  · obtain ⟨hr,hn,hv,hc⟩ := ht
    exact ensures_pure ⟨hc,hr,hn,hv⟩

theorem tryProvider_skips {provider : Provider} {reason : String}
    (h : tryProvider office host outputPath format unavailable provider s = .ok (.error reason) t) :
    t.considered = s.considered++[converterName provider format] ∧
      providerRefusal host format provider = some reason :=
  (tryProvider_rule provider s).ok h

/-- The providers that were passed over all refused, for the reasons collected. -/
theorem skipped_refuse {providers : List Provider} {reasons : List String}
    (h : Skipped (tryProvider office host outputPath format) s unavailable providers reasons t) :
    t.considered = s.considered++providers.map (fun provider => converterName provider format) ∧
      providers.map (providerRefusal host format) = reasons.map some := by
  induction h with
  | nil => simp
  | cons ha _ ih =>
    obtain ⟨hc,hr⟩ := tryProvider_skips ha
    refine ⟨?_,?_⟩
    · rw [ih.1,hc,List.map_cons]
      simp
    · rw [List.map_cons,hr,ih.2,List.map_cons]

end Rules

theorem refused_length {after : List (Option String)} (reasons : List String) :
    ((reasons.map some++none::after).takeWhile Option.isSome).length = reasons.length := by
  rw [List.takeWhile_append_of_pos (by simp)]
  simp

theorem reduceOption_some (reasons : List String) :
    (reasons.map some).reduceOption = reasons := by
  induction reasons with
  | nil => rfl
  | cons reason reasons ih => rw [List.map_cons,List.reduceOption_cons_of_some,ih]

section Decision

variable {office host outputPath format} {before after : List Provider} {p : Provider}
  {reasons : List String}

theorem provider_decides (hs : [.microsoft,.wps] = before++p::after)
    (hb : before.map (providerRefusal host format) = reasons.map some)
    (hp : providerRefusal host format p = none) :
    refusing host format = reasons.length ∧ reasons.length < 3 ∧
      (converters format).take (reasons.length+1) =
        before.map (fun provider => converterName provider format)++[converterName p format] ∧
      ((refusals host format).take reasons.length).reduceOption = reasons := by
  have hlen : reasons.length = before.length := by simpa using (congrArg List.length hb).symm
  have hlt : before.length < 2 := by
    have := congrArg List.length hs
    simp only [List.length_append,List.length_cons,List.length_nil] at this
    omega
  have hr : refusals host format = reasons.map some++none::(after.map
      (providerRefusal host format)++[libreOfficeRefusal host]) := by
    rw [refusals,hs,List.map_append,List.map_cons,hb,hp]
    simp
  refine ⟨?_,by omega,?_,?_⟩
  · rw [refusing,hr,refused_length]
  · rw [converters,hs,hlen,List.map_append,List.map_cons]
    simp [List.take_append]
  · rw [hr,List.take_left' (by simp),reduceOption_some]

theorem libreOffice_decides
    (hb : [Provider.microsoft,.wps].map (providerRefusal host format) = reasons.map some) :
    reasons.length = 2 ∧ (refusals host format).take 2 = reasons.map some ∧
      refusals host format = reasons.map some++[libreOfficeRefusal host] ∧
      refusing host format = if (libreOfficeRefusal host).isSome then 3 else 2 := by
  have hlen : reasons.length = 2 := by simpa using (congrArg List.length hb).symm
  have hr : refusals host format = reasons.map some++[libreOfficeRefusal host] := by
    rw [refusals,hb]
  refine ⟨hlen,?_,hr,?_⟩
  · rw [hr,List.take_left' (by simpa using hlen)]
  · cases hl : libreOfficeRefusal host with
    | none => rw [refusing,hr,hl,refused_length,hlen]; rfl
    | some reason =>
      have hall : refusals host format = (reasons++[reason]).map some := by simp [hr,hl]
      have hsome : ∀ x ∈ (reasons++[reason]).map some, x.isSome = true := by
        intro x hx
        obtain ⟨_,-,rfl⟩ := List.mem_map.mp hx
        rfl
      rw [refusing,hall,List.takeWhile_eq_self_iff.mpr hsome]
      simp [hlen]

variable (office host outputPath format)

/-- A document of the first willing converter. -/
def Delivers (converter : String) (t : Session) : Prop :=
  t.considered = (converters format).take (refusing host format+1) ∧
    t.considered.getLast? = some converter ∧ Valid office outputPath converter t

/-- An error of the first willing converter with the reasons of those before it, or the
reasons of all. -/
def Reports (e : OfficeConvertError) (t : Session) : Prop :=
  t.considered = (converters format).take (refusing host format+1) ∧
    if refusing host format = 3 then
      e = .convertersUnavailable ("; ".intercalate (refusals host format).reduceOption)
    else ∃ source, ¬Declines source ∧ e = withUnavailableContext source
      ((refusals host format).take (refusing host format)).reduceOption

variable {office host outputPath format}

/-- LibreOffice is considered after the others have refused. -/
theorem fallBackToLibreOffice_rule (s : Session)
    (hc : s.considered = [Provider.microsoft,.wps].map
      (fun provider => converterName provider format))
    (hb : [Provider.microsoft,.wps].map (providerRefusal host format) = reasons.map some) :
    Ensures (fallBackToLibreOffice office host outputPath reasons) s
      (Delivers office host outputPath format) (Reports host format) := by
  obtain ⟨hlen,htake,hall,hn⟩ := libreOffice_decides hb
  have hcons : ∀ t : Session, t.considered = s.considered++[libreOffice] →
      t.considered = (converters format).take (refusing host format+1) := by
    intro t ht
    rw [ht,hc,hn]
    split_ifs <;> rfl
  refine ((convertWithLibreOffice_rule s).attempt_ended).bind ?_ (by simp)
  rintro (e|converter) t ht
  · obtain ⟨hf,ht⟩ := ht
    cases hl : libreOfficeRefusal host with
    | some reason =>
      rw [hl] at hf
      obtain ⟨⟨name,why,rfl⟩,rfl⟩ := hf
      have hreasons : (refusals host format).reduceOption = reasons++
          [(OfficeConvertError.converterUnavailable name why).message] := by
        rw [hall,hl,← List.map_singleton,← List.map_append,reduceOption_some]
      refine ensures_throw ⟨hcons t ht,?_⟩
      rw [if_pos (by simp [hn,hl]),hreasons]
    | none =>
      rw [hl] at hf
      have h2 : refusing host format = 2 := by simp [hn,hl]
      have hreasons : ((refusals host format).take 2).reduceOption = reasons := by
        rw [htake,reduceOption_some]
      split
      · rename_i h
        cases h
      · rename_i h
        cases h
        exact absurd ⟨_,_,rfl⟩ hf
      · rename_i error _ h
        cases h
        refine ensures_throw ⟨hcons t ht,?_⟩
        rw [if_neg (by omega),h2,hreasons]
        exact ⟨_,hf,rfl⟩
  · obtain ⟨hl,rfl,ht⟩ := ht
    have h2 : refusing host format = 2 := by simp [hn,hl]
    have hreasons : ((refusals host format).take 2).reduceOption = reasons := by
      rw [htake,reduceOption_some]
    refine ensures_get_bind ?_
    split
    · rename_i hv
      exact ensures_pure ⟨hcons t ht,by rw [ht,List.getLast?_append]; rfl,hv⟩
    · rename_i error hv
      refine ensures_throw ⟨hcons t ht,?_⟩
      rw [if_neg (by omega),h2,hreasons]
      exact ⟨error,validatePdf_error hv,rfl⟩

end Decision

/-- The first converter that does not refuse decides: its document is delivered or its
error reported, with the reasons of those before it, and no later one is considered. -/
theorem first_willing_converter_decides (files : Store TempPath) :
    Ensures (convert office host outputPath format) ⟨files,[]⟩
      (Delivers office host outputPath format) (Reports host format) := by
  refine (firstOf_rule _ _ _).bind ?_ ?_
  · rintro (unavailable|⟨converter,p⟩) t ht
    · obtain ⟨reasons,hskip,rfl⟩ := ht
      obtain ⟨hc,hb⟩ := skipped_refuse hskip
      exact fallBackToLibreOffice_rule t hc hb
    · obtain ⟨before,after,reasons,u,hs,hskip,ha⟩ := ht
      obtain ⟨hc,hb⟩ := skipped_refuse hskip
      obtain ⟨ht,hp,rfl,hv⟩ := (tryProvider_rule p u).ok ha
      obtain ⟨hn,-,htake,-⟩ := provider_decides hs hb hp
      refine ensures_pure ⟨?_,?_,hv⟩
      · rw [ht,hc,hn,htake]
        rfl
      · rw [ht,List.getLast?_append]
        rfl
  · rintro e t ⟨before,p,after,reasons,u,hs,hskip,ha⟩
    obtain ⟨hc,hb⟩ := skipped_refuse hskip
    obtain ⟨ht,hp,source,hd,rfl⟩ := (tryProvider_rule p u).error ha
    obtain ⟨hn,hlt,htake,hreasons⟩ := provider_decides hs hb hp
    refine ⟨?_,?_⟩
    · rw [ht,hc,hn,htake]
      rfl
    · rw [if_neg (by omega),hn,hreasons]
      exact ⟨source,hd,rfl⟩

end YinShu.OfficeFallback
