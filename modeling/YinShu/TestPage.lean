import YinShu.PaperSizes
import YinShu.PdfText
import YinShu.Settings

/-!
# The contents of the test page

The page tells which printer, trays, paper and computer it was printed with. What
the operating system answers about the computer is given, the time of printing as
the text of the clock, in which the date and the time are separated by a `T`.
-/

set_option autoImplicit false

namespace YinShu.TestPage
open YinShu.TextScan YinShu.PrintModel YinShu.Protocol YinShu.PaperSizes YinShu.Settings

structure TestPageRow where
  label : String
  value : String
  deriving DecidableEq, Repr

structure TestPageSection where
  heading : String
  rows : List TestPageRow
  deriving DecidableEq, Repr

structure TestPageContent where
  title : String
  kicker : String
  subtitle : String
  sections : List TestPageSection
  footer : String
  deriving DecidableEq, Repr

structure DeviceInfo where
  hostname : String
  username : String
  os : String
  localIp : Option String
  printedAt : String
  deriving DecidableEq, Repr

def spaceFor (hidden c : Char) : Char := if c = hidden then ' ' else c

/-- `None` is a time that cannot be formatted. -/
def currentPrintedAt (stamp : Option String) : String :=
  String.ofList (((stamp.getD "unknown").toList.take 16).map (spaceFor 'T'))++" UTC"

def printerStatusLine (printer : Option PrinterInfo) : String :=
  match printer.map PrinterInfo.availability with
  | some .available => "Ready"
  | some .unavailable => "Offline"
  | some .unknown | none => "Not reported"

def printerKindLabel (printer : PrinterInfo) : Option String :=
  if printer.isVirtual = some true then some "Virtual"
  else if printer.isNetwork = some true then some "Network"
  else if printer.isLocal = some true then some "Local"
  else none

def dpiText (dpi : UInt32) : String := toString dpi.toNat++" dpi"

def printerDetailLine (printer : Option PrinterInfo) : Option String :=
  match printer with
  | none => none
  | some printer =>
    let parts := (printerKindLabel printer).toList++
      (printer.port.filter (fun port => !port.isEmpty)).toList++(printer.dpi.map dpiText).toList
    if parts.isEmpty then none else some ("  /  ".intercalate parts)

def trayLabel (tray : PrinterTrayInfo) : String :=
  let name := String.ofList (tray.name.toList.map (spaceFor '_'))
  if name = tray.id then name else name++"  "++tray.id

def joinOrNone (values : List String) : String :=
  if values.isEmpty then "None" else ", ".intercalate values

def emptyAsDash (value : String) : String := if (trim value).isEmpty then "-" else value

def printerRows (printerName : String) (printer : Option PrinterInfo) : List TestPageRow :=
  [⟨"Name",printerName⟩,⟨"Status",printerStatusLine printer⟩]++
    ((printerDetailLine printer).map (TestPageRow.mk "Via")).toList++
    if printer.any PrinterInfo.isDefault then [⟨"Default","Yes"⟩] else []

def trayRows (trays : List PrinterTrayInfo) : List TestPageRow :=
  if trays.isEmpty then [⟨"","Not reported"⟩]
  else (trays.take 8).map (fun tray => ⟨"",trayLabel tray⟩)++
    if 8 < trays.length then [⟨"","+"++toString (trays.length-8)++" more"⟩] else []

def paperRows (paper : EffectivePaper) : List TestPageRow :=
  let label := paperName paper.widthMm paper.heightMm
  if "mm".toList.isSuffixOf label.toList then [⟨"",label⟩]
  else [⟨"",label⟩,⟨"",formatPaperDimension paper.widthMm++" x "++
    formatPaperDimension paper.heightMm++" mm"⟩]

def connectText (config : AgentConfig) (device : DeviceInfo) : String :=
  match device.localIp with
  | some ip => ip++":"++toString config.service.port.toNat
  | none => "port "++toString config.service.port.toNat

def computerRows (config : AgentConfig) (device : DeviceInfo) : List TestPageRow :=
  [⟨"Host",emptyAsDash device.hostname⟩,⟨"User",emptyAsDash device.username⟩,
    ⟨"OS",emptyAsDash device.os⟩,⟨"Web",connectText config device⟩,
    ⟨"Sites",joinOrNone config.security.allowedOrigins⟩]

def buildTestPage (config : AgentConfig) (printerName : String) (paper : EffectivePaper)
    (device : DeviceInfo) (printer : Option PrinterInfo) (trays : List PrinterTrayInfo) :
    TestPageContent where
  title := "Yinshu"
  kicker := "Test page"
  subtitle := "This paper reached this printer."
  sections := [⟨"Printer",printerRows printerName printer⟩,⟨"Trays",trayRows trays⟩,
    ⟨"Paper",paperRows paper⟩,⟨"Computer",computerRows config device⟩]
  footer := device.printedAt

/-- Every label fits into the eight characters that a line always has. -/
theorem label_short {config : AgentConfig} {printerName : String} {paper : EffectivePaper}
    {device : DeviceInfo} {printer : Option PrinterInfo} {trays : List PrinterTrayInfo}
    {group : TestPageSection} {row : TestPageRow}
    (hg : group ∈ (buildTestPage config printerName paper device printer trays).sections)
    (hr : row ∈ group.rows) : row.label.length ≤ 8 := by
  have hlabel : row.label ∈
      ["","Name","Status","Via","Default","Host","User","OS","Web","Sites"] := by
    simp only [buildTestPage,List.mem_cons,List.not_mem_nil,or_false] at hg
    rcases hg with rfl | rfl | rfl | rfl
    · simp only [printerRows,List.mem_append,List.mem_cons,List.not_mem_nil,or_false] at hr
      rcases hr with ((rfl | rfl) | hvia) | hdefault
      · simp
      · simp
      · cases hd : printerDetailLine printer with
        | none => simp [hd] at hvia
        | some detail =>
          have hrow : row = ⟨"Via",detail⟩ := by simpa [hd] using hvia
          simp [hrow]
      · split at hdefault
        · have hrow : row = ⟨"Default","Yes"⟩ := by simpa using hdefault
          simp [hrow]
        · simp at hdefault
    · simp only [trayRows] at hr
      split at hr
      · have hrow : row = ⟨"","Not reported"⟩ := by simpa using hr
        simp [hrow]
      · rcases List.mem_append.mp hr with htray | hmore
        · obtain ⟨tray,-,rfl⟩ := List.mem_map.mp htray
          simp
        · split at hmore
          · rw [List.mem_singleton.mp hmore]
            simp
          · simp at hmore
    · simp only [paperRows] at hr
      split at hr
      · rw [List.mem_singleton.mp hr]
        simp
      · rcases List.mem_cons.mp hr with rfl | hr
        · simp
        · rw [List.mem_singleton.mp hr]
          simp
    · simp only [computerRows,List.mem_cons,List.not_mem_nil,or_false] at hr
      rcases hr with rfl | rfl | rfl | rfl | rfl <;> simp
  have hshort : ∀ label ∈ ["","Name","Status","Via","Default","Host","User","OS","Web","Sites"],
      label.length ≤ 8 := by decide
  exact hshort row.label hlabel

theorem currentPrintedAt_length (stamp : Option String) :
    (currentPrintedAt stamp).length ≤ 20 ∧ (currentPrintedAt stamp).length ≠ 0 := by
  have hsuffix : " UTC".length = 4 := rfl
  rw [currentPrintedAt,String.length_append,String.length_ofList,List.length_map,hsuffix,
    List.length_take]
  omega

end YinShu.TestPage
