import Mathlib.Data.List.Nodup
import YinShu.ClientText

/-!
# Replies about one printer

A printer appears in two replies: as an entry of the list of all printers and
with its own details. Both handlers start from the list of the backend. The
first one lets the configured default printer override the backend's flag, the
second one passes the flag on, and this is the only field in which the replies
can differ.
-/

set_option autoImplicit false

namespace YinShu.PrinterReplies
open YinShu.PrintModel YinShu.Protocol YinShu.PrintQueue YinShu.Settings YinShu.ClientText

/-- The fields that the entry of a printer and its details have in common. -/
structure SharedFields where
  isDefault : Bool
  dpi : Option UInt32
  port : Option String
  isLocal : Option Bool
  isNetwork : Option Bool
  isVirtual : Option Bool
  deriving DecidableEq, Repr

def ofEntry (entry : PrinterInfo) : SharedFields :=
  ⟨entry.isDefault,entry.dpi,entry.port,entry.isLocal,entry.isNetwork,entry.isVirtual⟩

def ofDetails (details : PrinterDetails) : SharedFields :=
  ⟨details.isDefault,details.dpi,details.port,details.isLocal,details.isNetwork,
    details.isVirtual⟩

/-- The list has an entry under the name in the details, and both say the same
of the printer. Replies that report an error say nothing of it. -/
def Agree : ServerMessage → ServerMessage → Prop
  | .printersList _ printers, .printerInfo _ details =>
    (printers.find? (fun entry => entry.name == details.name)).map ofEntry =
      some (ofDetails details)
  | _, _ => True

/-- The three queries that follow once the printer is found all succeed. -/
def Answered (queries : PrinterQueries) (name : String) : Prop :=
  (queries.listPapers name).isOk ∧ (queries.listTrays name).isOk ∧
    (queries.listMediaTypes name).isOk

/-- The entry of the list reply for a printer of the backend. -/
def reported (config : AgentConfig) (printer : PrinterInfo) : PrinterInfo :=
  match config.printing.defaultPrinter with
  | some defaultPrinter => { printer with isDefault := printer.name == defaultPrinter }
  | none => printer

@[simp] theorem reported_name (config : AgentConfig) (printer : PrinterInfo) :
    (reported config printer).name = printer.name := by
  unfold reported
  split <;> rfl

theorem ofEntry_reported (config : AgentConfig) (printer : PrinterInfo) :
    ofEntry (reported config printer) = ofEntry printer ↔
      ∀ defaultPrinter ∈ config.printing.defaultPrinter,
        printer.isDefault = (printer.name == defaultPrinter) := by
  cases h : config.printing.defaultPrinter with
  | none => simp [reported,h]
  | some defaultPrinter => simp [reported,h,ofEntry,eq_comm]

theorem find_entry {printers : List PrinterInfo}
    (hn : (printers.map PrinterInfo.name).Nodup) {printer : PrinterInfo}
    (hp : printer ∈ printers) :
    printers.find? (fun entry => entry.name == printer.name) = some printer := by
  have hex : ∃ entry ∈ printers, (entry.name == printer.name) = true :=
    ⟨printer,hp,beq_self_eq_true printer.name⟩
  obtain ⟨entry,he⟩ := Option.isSome_iff_exists.mp (List.find?_isSome.mpr hex)
  have hm : entry.name = printer.name := by simpa using List.find?_some he
  rw [he,List.inj_on_of_nodup_map hn (List.mem_of_find?_eq_some he) hp hm]

section Replies

variable {env : ServerEnv} {printers : List PrinterInfo}
variable (config : AgentConfig) (listId infoId : String) (printer : PrinterInfo)

theorem handleGetPrintersList_ok (hl : env.printing.listPrinters = .ok printers) :
    handleGetPrintersList env config listId =
      .printersList listId (printers.map (reported config)) := by
  unfold handleGetPrintersList
  rw [hl]
  cases h : config.printing.defaultPrinter with
  | none =>
    have hid : reported config = id := by
      funext printer
      simp [reported,h]
    rw [hid,List.map_id]
  | some defaultPrinter =>
    have hmark : reported config = fun printer =>
        { printer with isDefault := printer.name == defaultPrinter } := by
      funext printer
      simp [reported,h]
    rw [hmark]

theorem find_reported (hn : (printers.map PrinterInfo.name).Nodup) (hp : printer ∈ printers) :
    (printers.map (reported config)).find? (fun entry => entry.name == printer.name) =
      some (reported config printer) := by
  rw [List.find?_map]
  have hc : ((fun entry : PrinterInfo => entry.name == printer.name) ∘ reported config) =
      fun entry => entry.name == printer.name := by
    funext entry
    simp
  rw [hc,find_entry hn hp,Option.map_some]

/-- The details repeat the shared fields of the backend's own entry. -/
theorem handleGetPrinterInfo_answered (hl : env.printing.listPrinters = .ok printers)
    (hn : (printers.map PrinterInfo.name).Nodup) (hp : printer ∈ printers)
    (ha : Answered env.printing printer.name) :
    ∃ details, handleGetPrinterInfo env infoId printer.name = .printerInfo infoId details ∧
      details.name = printer.name ∧ ofDetails details = ofEntry printer := by
  obtain ⟨h1,h2,h3⟩ := ha
  unfold handleGetPrinterInfo
  rw [hl]
  simp only [find_entry hn hp]
  cases hpapers : env.printing.listPapers printer.name with
  | error error => simp [hpapers,Except.isOk,Except.toBool] at h1
  | ok papers =>
    cases htrays : env.printing.listTrays printer.name with
    | error error => simp [htrays,Except.isOk,Except.toBool] at h2
    | ok trays =>
      cases hmedia : env.printing.listMediaTypes printer.name with
      | error error => simp [hmedia,Except.isOk,Except.toBool] at h3
      | ok mediaTypes => exact ⟨_,rfl,rfl,rfl⟩

theorem handleGetPrinterInfo_unanswered (hl : env.printing.listPrinters = .ok printers)
    (hn : (printers.map PrinterInfo.name).Nodup) (hp : printer ∈ printers)
    (ha : ¬ Answered env.printing printer.name) :
    ∃ error, handleGetPrinterInfo env infoId printer.name =
      printErrorResponse (some infoId) error := by
  unfold handleGetPrinterInfo
  rw [hl]
  simp only [find_entry hn hp]
  cases hpapers : env.printing.listPapers printer.name with
  | error error => exact ⟨error,rfl⟩
  | ok papers =>
    cases htrays : env.printing.listTrays printer.name with
    | error error => exact ⟨error,rfl⟩
    | ok trays =>
      cases hmedia : env.printing.listMediaTypes printer.name with
      | error error => exact ⟨error,rfl⟩
      | ok mediaTypes =>
        exact absurd ⟨by rw [hpapers]; rfl,by rw [htrays]; rfl,by rw [hmedia]; rfl⟩ ha

variable (origin : Option String) (q : QueueState)

/-- Both requests, handled one after the other while the backend's answers and
the configuration stay the same. -/
def RepliesAgree (env : ServerEnv) (name : String) : Prop :=
  Agree (handleMessage env config origin q (.getPrintersList listId)).outcome.response
    (handleMessage env config origin q (.getPrinterInfo infoId name)).outcome.response

/-- The two replies about a printer of the backend agree exactly when the
details are refused or the backend's flag of that printer already says whether
the configured default printer, if there is one, is it. -/
theorem printer_replies_agree_iff (hl : env.printing.listPrinters = .ok printers)
    (hn : (printers.map PrinterInfo.name).Nodup) (hp : printer ∈ printers) :
    RepliesAgree config listId infoId origin q env printer.name ↔
      (Answered env.printing printer.name →
        ∀ defaultPrinter ∈ config.printing.defaultPrinter,
          printer.isDefault = (printer.name == defaultPrinter)) := by
  have hreply : RepliesAgree config listId infoId origin q env printer.name ↔
      Agree (.printersList listId (printers.map (reported config)))
        (handleGetPrinterInfo env infoId printer.name) := by
    rw [← handleGetPrintersList_ok config listId hl]
    rfl
  rw [hreply]
  by_cases ha : Answered env.printing printer.name
  · obtain ⟨details,hr,hname,hshared⟩ :=
      handleGetPrinterInfo_answered infoId printer hl hn hp ha
    rw [hr]
    simp only [Agree,hname,find_reported config printer hn hp,hshared,Option.map_some,
      Option.some.injEq]
    rw [ofEntry_reported]
    exact ⟨fun h _ => h,fun h => h ha⟩
  · obtain ⟨error,hr⟩ := handleGetPrinterInfo_unanswered infoId printer hl hn hp ha
    rw [hr]
    exact ⟨fun _ h => absurd h ha,fun _ => trivial⟩

end Replies

/-- The two printers of a backend whose own default is the first one. -/
def twoPrinters : List PrinterInfo :=
  [⟨"Windows system default",true,none,none,none,none,none,.unknown⟩,
    ⟨"Zebra ZD421",false,some 203,some "usb://Zebra/ZD421",some true,some false,some false,
      .unknown⟩]

def twoPrinterEnv : ServerEnv where
  parsers := ⟨fun _ => none,fun _ => none,fun _ => none⟩
  fromStr := fun _ => .error "expected value"
  printing := ⟨.ok twoPrinters,fun _ => .ok [],fun _ => .ok [],fun _ => .ok []⟩

def configuredDefault (name : String) : AgentConfig :=
  { AgentConfig.default with printing := ⟨some name,none,1⟩ }

theorem printer_replies_agree_when_default_matches :
    RepliesAgree (configuredDefault "Windows system default") "R1" "R2" none {} twoPrinterEnv
      "Zebra ZD421" :=
  (@printer_replies_agree_iff twoPrinterEnv twoPrinters
    (configuredDefault "Windows system default") "R1" "R2"
    ⟨"Zebra ZD421",false,some 203,some "usb://Zebra/ZD421",some true,some false,some false,
      .unknown⟩ none {} rfl (by decide) (by decide)).mpr (fun _ => by decide)

/-- The configured label printer is the default one in the list and not the
default one in its details. -/
theorem configured_default_replies_differ :
    twoPrinterEnv.printing.listPrinters = .ok twoPrinters ∧
      (twoPrinters.map PrinterInfo.name).Nodup ∧
      "Zebra ZD421" ∈ twoPrinters.map PrinterInfo.name ∧
      ¬ RepliesAgree (configuredDefault "Zebra ZD421") "R1" "R2" none {} twoPrinterEnv
        "Zebra ZD421" := by
  refine ⟨rfl,by decide,by decide,?_⟩
  change ¬ ((twoPrinters.map (reported (configuredDefault "Zebra ZD421"))).find?
    (fun entry => entry.name == "Zebra ZD421")).map ofEntry =
      some ⟨false,some 203,some "usb://Zebra/ZD421",some true,some false,some false⟩
  decide

end YinShu.PrinterReplies
