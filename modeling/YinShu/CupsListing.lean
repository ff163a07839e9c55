import YinShu.CupsAttributes
import YinShu.CupsJobNames
import YinShu.CupsOptions

/-!
# The list of printers

The agent reads its printers out of what four commands print: the destinations, the
default one, the devices, and the options of each printer. Only the first command has
to succeed. The list that is read back is the one of the print server, and a printer
that is looked for is found exactly when the server has it.
-/

set_option autoImplicit false

namespace YinShu.CupsListing
open YinShu.TextScan YinShu.TextPieces YinShu.PrintModel YinShu.Submission YinShu.CupsAttributes
open YinShu.CupsJobNames YinShu.CupsOptions

/-- Whether a printer is local, on the network, or virtual. -/
def classifyPort (port : String) : Option Bool × Option Bool × Option Bool :=
  let lower := (toAsciiLowercase port).toList
  if startsWith "file:" lower || contains "pdf" lower || contains "fax" lower then
    (some false,some false,some true)
  else if startsWith "ipp:" lower || startsWith "ipps:" lower || startsWith "http:" lower ||
      startsWith "https:" lower || startsWith "socket:" lower || startsWith "lpd:" lower ||
      startsWith "smb:" lower || startsWith "dnssd:" lower then
    (some false,some true,some false)
  else if startsWith "usb:" lower || startsWith "serial:" lower || startsWith "parallel:" lower then
    (some true,some false,some false)
  else (none,none,none)

def deviceFor : List Char := "device for ".toList

def colonSpace : List Char := ": ".toList

def parseDeviceLine (line : List Char) : Option (String × String) :=
  match afterFirst colonSpace line with
  | none => none
  | some port =>
    let front := beforeFirst colonSpace line
    let name := trimChars ((stripStart deviceFor front).getD front)
    if name.isEmpty || (trimChars port).isEmpty then none
    else some (String.ofList name,String.ofList (trimChars port))

/-- The pairs in the order in which they are put into the map. -/
def parseLpstatDevices (output : String) : List (String × String) :=
  (lines output.toList).filterMap parseDeviceLine

/-- A later pair replaces an earlier one of the same name. -/
def portOf (ports : List (String × String)) (name : String) : Option String :=
  (ports.reverse.find? (fun pair => pair.1 == name)).map Prod.snd

def parseDefaultLine (line : List Char) : Option String :=
  match (rsplitOnceChars ':' line).or (rsplitOnceChars '：' line) with
  | none => none
  | some parts =>
    let destination := trimChars parts.2
    if destination.isEmpty then none else some (String.ofList destination)

def parseDefaultDestination (output : String) : Option String :=
  (lines output.toList).findSome? parseDefaultLine

def newPrinter (name : String) (isDefault : Bool) : PrinterInfo :=
  ⟨name,isDefault,none,none,none,none,none,.unknown⟩

def withPort (port : Option String) (printer : PrinterInfo) : PrinterInfo :=
  match port with
  | none => printer
  | some port =>
    let kind := classifyPort port
    { printer with
      port := some port, isLocal := kind.1, isNetwork := kind.2.1, isVirtual := kind.2.2 }

def parseDestinationLine (defaultPrinter : Option String) (ports : List (String × String))
    (line : List Char) : Option PrinterInfo :=
  let name := String.ofList (trimChars line)
  if name.isEmpty then none
  else some (withPort (portOf ports name) (newPrinter name (defaultPrinter == some name)))

def parseLpstatDestinations (output : String) (defaultPrinter : Option String)
    (ports : List (String × String)) : List PrinterInfo :=
  (lines output.toList).filterMap (parseDestinationLine defaultPrinter ports)

/-- What the commands print; all but the first may fail. -/
structure ListingHost where
  destinations : Except PrintError String
  defaultDestination : Option String
  devices : Option String
  options : String → Option String
  attributes : String → Option String

def currentDefaultPrinter (host : ListingHost) : Option String :=
  host.defaultDestination.bind parseDefaultDestination

def currentPrinterPorts (host : ListingHost) : List (String × String) :=
  (host.devices.map parseLpstatDevices).getD []

def describe (host : ListingHost) (printer : PrinterInfo) : PrinterInfo := { printer with
  dpi := match host.options printer.name with
    | some output => parseLpoptionsDpi output
    | none => printer.dpi
  availability := match host.attributes printer.name with
    | some output => printerAvailabilityFromLpoptions output
    | none => printer.availability }

def listPrinters (host : ListingHost) : Except PrintError (List PrinterInfo) :=
  match host.destinations with
  | .error error => .error error
  | .ok output => .ok ((parseLpstatDestinations output (currentDefaultPrinter host)
      (currentPrinterPorts host)).map (describe host))

section Reading

variable {cs front back : List Char}

theorem trimChars_plain (h : ∀ c ∈ cs, isWhitespace c = false) : trimChars cs = cs := by
  have hfront : cs.dropWhile isWhitespace = cs := by
    cases cs with
    | nil => rfl
    | cons c cs => simp [h c List.mem_cons_self]
  rw [trimChars,hfront,List.rdropWhile_eq_self_iff]
  intro hne
  simp [h _ (List.getLast_mem hne)]

theorem trimChars_space (cs : List Char) : trimChars (' '::cs) = trimChars cs := by
  rw [trimChars,trimChars,List.dropWhile_cons_of_pos (by decide)]

theorem stripStart_mismatch {c d : Char} (h : d ≠ c) (rest : List Char) :
    stripStart [':',d] (':'::c::rest) = none := by
  simp [stripStart,h]

/-- The first separator is the one that was written behind the front. -/
theorem afterFirst_colon (h : ¬[':',' '] <:+: front) (back : List Char) :
    afterFirst [':',' '] (front++ ':' :: ' ' :: back) = some back ∧
      beforeFirst [':',' '] (front++ ':' :: ' ' :: back) = front := by
  induction front with
  | nil => simp [afterFirst,beforeFirst,stripStart]
  | cons c front ih =>
    obtain ⟨ha,hb⟩ := ih (fun hi => h (hi.trans (List.suffix_cons c front).isInfix))
    have hnone : stripStart [':',' '] (c::(front++ ':' :: ' ' :: back)) = none := by
      by_cases hc : c = ':'
      · subst hc
        cases front with
        | nil => exact stripStart_mismatch (by decide) _
        | cons d front =>
          refine stripStart_mismatch ?_ _
          rintro rfl
          exact h (List.prefix_append [':',' '] front).isInfix
      · simp [stripStart,Ne.symm hc]
    simp [afterFirst,beforeFirst,hnone,ha,hb]

theorem no_colon_space (hf : ':' ∉ front) (hb : ' ' ∉ back) : ¬[':',' '] <:+: front++back := by
  induction front with
  | nil =>
    intro h
    exact hb (h.subset (by simp))
  | cons c front ih =>
    obtain ⟨hc,hf⟩ := not_or.mp (fun h' => hf (List.mem_cons.mpr h'))
    rw [List.cons_append,List.infix_cons_iff]
    rintro (h | h)
    · exact hc (List.cons_prefix_cons.mp h).1
    · exact ih hf h

end Reading

/-- What a print server has: its destinations, each with a device, and the default one. -/
structure Server where
  destinations : List Destination
  uri : String → List Char
  uri_nonempty : ∀ name, uri name ≠ []
  uri_trimmed : ∀ name, trimChars (uri name) = uri name
  uri_line : ∀ name, '\n' ∉ uri name
  default : Option Destination

/-- The languages in which the agent reads the default destination. -/
inductive Language where
  | english
  | chinese

def destinationsText (server : Server) : String :=
  String.ofList (server.destinations.flatMap (fun d => d.name.toList++['\n']))

def deviceLine (server : Server) (d : Destination) : List Char :=
  deviceFor++d.name.toList++ ':' :: ' ' :: server.uri d.name

def devicesText (server : Server) : String :=
  String.ofList (server.destinations.flatMap (fun d => deviceLine server d++['\n']))

def englishPhrase : List Char := "system default destination".toList

def chinesePhrase : List Char := "系统默认目的位置".toList

def defaultLine : Language → Destination → List Char
  | .english, d => englishPhrase++ ':' :: ' ' :: d.name.toList
  | .chinese, d => chinesePhrase++ '：' :: d.name.toList

def Colonless (text : String) : Prop := ':' ∉ text.toList ∧ '：' ∉ text.toList

/-- The list of destinations is printed; each other command prints what is so, or fails.
Where there is no default destination, a text without a colon says it. -/
structure Answers (server : Server) (host : ListingHost) : Prop where
  destinations : host.destinations = .ok (destinationsText server)
  default : ∀ text, host.defaultDestination = some text → match server.default with
    | some d => ∃ language, text = String.ofList (defaultLine language d++['\n'])
    | none => Colonless text
  devices : ∀ text, host.devices = some text → text = devicesText server

section Names

variable {d : Destination} {c : Char} {cs : List Char}

theorem name_not_mem (d : Destination) (hc : isWhitespace c = true) : c ∉ d.name.toList := by
  intro hm
  simp [d.plain c hm] at hc

theorem trimmed_name (d : Destination) : trimChars d.name.toList = d.name.toList :=
  trimChars_plain d.plain

theorem not_ends_cr (hne : cs ≠ []) (h : trimChars cs = cs) : cs.getLast? ≠ some '\r' := by
  intro hl
  have hkept : (cs.dropWhile isWhitespace).rdropWhile isWhitespace = cs := h
  have hlast := List.rdropWhile_last_not isWhitespace (cs.dropWhile isWhitespace) (by rwa [hkept])
  simp only [hkept] at hlast
  rw [List.getLast?_eq_some_getLast hne,Option.some.injEq] at hl
  exact hlast (by rw [hl]; decide)

theorem destinations_read (server : Server) :
    lines (destinationsText server).toList = server.destinations.map (fun d => d.name.toList) := by
  rw [destinationsText,String.toList_ofList,
    lines_blocks (fun d : Destination => d.name.toList) (fun d => name_not_mem d (by decide))]
  refine List.map_congr_left (fun d _ => if_neg ?_)
  exact not_ends_cr d.nonempty (trimmed_name d)

theorem device_front (d : Destination) : ¬[':',' '] <:+: deviceFor++d.name.toList :=
  no_colon_space (by decide) (name_not_mem d (by decide))

theorem parseDeviceLine_some {line name port : List Char}
    (hafter : afterFirst colonSpace line = some port)
    (hbefore : beforeFirst colonSpace line = deviceFor++name)
    (hname : trimChars name = name) (hport : trimChars port = port) (hn : name ≠ [])
    (hp : port ≠ []) :
    parseDeviceLine line = some (String.ofList name,String.ofList port) := by
  have hempty : (name.isEmpty || port.isEmpty) = false := by
    simp [List.isEmpty_eq_false_iff.mpr hn,List.isEmpty_eq_false_iff.mpr hp]
  rw [parseDeviceLine,hafter]
  simp only [hbefore,stripStart_append,Option.getD_some,hname,hport,hempty,Bool.false_eq_true,
    if_false]

theorem parseDeviceLine_read (server : Server) (d : Destination) :
    parseDeviceLine (deviceLine server d) = some (d.name,String.ofList (server.uri d.name)) := by
  obtain ⟨hafter,hbefore⟩ := afterFirst_colon (device_front d) (server.uri d.name)
  have hcolon : [':',' '] = colonSpace := by decide
  rw [hcolon] at hafter hbefore
  rw [deviceLine,parseDeviceLine_some hafter hbefore (trimmed_name d) (server.uri_trimmed d.name)
    d.nonempty (server.uri_nonempty d.name),String.ofList_toList]

theorem deviceLine_newline (server : Server) (d : Destination) : '\n' ∉ deviceLine server d := by
  have hd : '\n' ∉ deviceFor := by decide
  have hcolon : '\n' ≠ ':' := by decide
  have hspace : '\n' ≠ ' ' := by decide
  simp only [deviceLine,List.mem_append,List.mem_cons,not_or]
  exact ⟨⟨hd,name_not_mem d (by decide)⟩,hcolon,hspace,server.uri_line d.name⟩

theorem deviceLine_end (server : Server) (d : Destination) :
    (deviceLine server d).getLast? ≠ some '\r' := by
  have huri := not_ends_cr (server.uri_nonempty d.name) (server.uri_trimmed d.name)
  cases hu : server.uri d.name with
  | nil => exact absurd hu (server.uri_nonempty d.name)
  | cons c cs =>
    rw [hu] at huri
    rw [deviceLine,hu,List.getLast?_append,List.getLast?_cons_cons,List.getLast?_cons_cons,
      List.getLast?_cons,Option.some_or]
    rwa [List.getLast?_cons] at huri

theorem devices_read (server : Server) : parseLpstatDevices (devicesText server) =
    server.destinations.map (fun d => (d.name,String.ofList (server.uri d.name))) := by
  rw [parseLpstatDevices,devicesText,String.toList_ofList,
    lines_blocks (deviceLine server) (deviceLine_newline server),List.filterMap_map,
    ← List.filterMap_eq_map]
  refine List.filterMap_congr (fun d _ => ?_)
  rw [Function.comp_apply,if_neg (deviceLine_end server d),parseDeviceLine_read]
  rfl

theorem parseDefaultLine_some {line : List Char} (front name : List Char)
    (hr : (rsplitOnceChars ':' line).or (rsplitOnceChars '：' line) = some (front,name))
    (hn : trimChars name = d.name.toList) : parseDefaultLine line = some d.name := by
  have hempty : d.name.toList.isEmpty = false := List.isEmpty_eq_false_iff.mpr d.nonempty
  rw [parseDefaultLine,hr]
  simp only [hn,hempty,Bool.false_eq_true,if_false,String.ofList_toList]

theorem rsplitOnceChars_none (h : c ∉ cs) : rsplitOnceChars c cs = none := by
  rw [rsplitOnceChars,Option.map_eq_none_iff]
  exact splitOnceChars_none (fun hm => h (List.mem_reverse.mp hm))

theorem parseDefaultLine_none (h : ':' ∉ cs) (h' : '：' ∉ cs) : parseDefaultLine cs = none := by
  rw [parseDefaultLine,rsplitOnceChars_none h,rsplitOnceChars_none h']
  rfl

theorem parseDefaultLine_read (language : Language) (h : Colonless d.name) :
    parseDefaultLine (defaultLine language d) = some d.name := by
  cases language with
  | english =>
    have hname : ':' ∉ ' '::d.name.toList := by
      rw [List.mem_cons,not_or]
      exact ⟨by decide,h.1⟩
    refine parseDefaultLine_some englishPhrase (' '::d.name.toList) ?_ ?_
    · rw [defaultLine,rsplitOnceChars_append _ hname,Option.some_or]
    · rw [trimChars_space,trimmed_name]
  | chinese =>
    have hphrase : ':' ∉ chinesePhrase := by decide
    have hnone : ':' ∉ chinesePhrase++ '：' :: d.name.toList := by
      rw [List.mem_append,List.mem_cons,not_or,not_or]
      exact ⟨hphrase,by decide,h.1⟩
    refine parseDefaultLine_some chinesePhrase d.name.toList ?_ (trimmed_name d)
    rw [defaultLine,rsplitOnceChars_none hnone,Option.none_or,rsplitOnceChars_append _ h.2]

theorem mem_of_mem_lines {line : List Char} (hl : line ∈ lines cs) (hc : c ∈ line) : c ∈ cs := by
  unfold lines at hl
  rcases List.mem_append.mp hl with hl | hl
  · obtain ⟨piece,hp,rfl⟩ := List.mem_map.mp hl
    refine mem_of_mem_splitChars ((List.dropLast_subset _ hp)) ?_
    split at hc
    · exact List.dropLast_subset _ hc
    · exact hc
  · simp only [Option.mem_toList,Option.filter_eq_some_iff] at hl
    exact mem_of_mem_splitChars (List.mem_of_getLast? hl.1) hc

theorem parseDefaultDestination_none {text : String} (h : Colonless text) :
    parseDefaultDestination text = none := by
  rw [parseDefaultDestination,List.findSome?_eq_none_iff]
  intro line hl
  exact parseDefaultLine_none (fun hc => h.1 (mem_of_mem_lines hl hc))
    (fun hc => h.2 (mem_of_mem_lines hl hc))

theorem defaultLine_newline (language : Language) (d : Destination) :
    '\n' ∉ defaultLine language d := by
  have hn := name_not_mem d (c := '\n') (by decide)
  have henglish : '\n' ∉ englishPhrase := by decide
  have hchinese : '\n' ∉ chinesePhrase := by decide
  have hcolon : '\n' ≠ ':' := by decide
  have hwide : '\n' ≠ '：' := by decide
  have hspace : '\n' ≠ ' ' := by decide
  cases language <;> simp only [defaultLine,List.mem_append,List.mem_cons,not_or]
  · exact ⟨henglish,hcolon,hspace,hn⟩
  · exact ⟨hchinese,hwide,hn⟩

theorem default_read (language : Language) (h : Colonless d.name) :
    parseDefaultDestination (String.ofList (defaultLine language d++['\n'])) = some d.name := by
  have hend : (defaultLine language d).getLast? ≠ some '\r' := by
    have hname := not_ends_cr d.nonempty (trimmed_name d)
    cases hn : d.name.toList with
    | nil => exact absurd hn d.nonempty
    | cons c cs =>
      rw [hn] at hname
      cases language <;> rw [defaultLine,hn,List.getLast?_append] <;>
        simpa [List.getLast?_cons] using hname
  have hlines := lines_blocks (fun _ : Unit => defaultLine language d)
    (fun _ => defaultLine_newline language d) [()]
  rw [List.flatMap_singleton,List.map_singleton,if_neg hend] at hlines
  rw [parseDefaultDestination,String.toList_ofList,hlines,List.findSome?_cons,
    parseDefaultLine_read language h]

end Names

/-- What the interface shows of a destination. -/
def shown (server : Server) (host : ListingHost) (d : Destination) : PrinterInfo where
  name := d.name
  isDefault := host.defaultDestination.isSome &&
    (server.default.map Destination.name == some d.name)
  dpi := (host.options d.name).bind parseLpoptionsDpi
  port := host.devices.map (fun _ => String.ofList (server.uri d.name))
  isLocal := host.devices.bind (fun _ => (classifyPort (String.ofList (server.uri d.name))).1)
  isNetwork := host.devices.bind (fun _ => (classifyPort (String.ofList (server.uri d.name))).2.1)
  isVirtual := host.devices.bind (fun _ => (classifyPort (String.ofList (server.uri d.name))).2.2)
  availability := (host.attributes d.name).elim .unknown printerAvailabilityFromLpoptions

section Listing

variable {server : Server} {host : ListingHost} {d : Destination}

theorem portOf_devices (server : Server) (hd : d ∈ server.destinations) :
    portOf (server.destinations.map (fun d => (d.name,String.ofList (server.uri d.name)))) d.name =
      some (String.ofList (server.uri d.name)) := by
  rw [portOf,Option.map_eq_some_iff]
  cases hf : (server.destinations.map
      (fun d => (d.name,String.ofList (server.uri d.name)))).reverse.find?
        (fun pair => pair.1 == d.name) with
  | none =>
    have hnone := List.find?_eq_none.mp hf (d.name,String.ofList (server.uri d.name))
      (List.mem_reverse.mpr (List.mem_map_of_mem hd))
    simp at hnone
  | some pair =>
    have hname := List.find?_some hf
    obtain ⟨other,-,rfl⟩ := List.mem_map.mp (List.mem_reverse.mp (List.mem_of_find?_eq_some hf))
    have heq : other.name = d.name := by simpa using hname
    exact ⟨_,rfl,by rw [heq]⟩

theorem currentPrinterPorts_read (h : Answers server host) (hd : d ∈ server.destinations) :
    portOf (currentPrinterPorts host) d.name =
      host.devices.map (fun _ => String.ofList (server.uri d.name)) := by
  rw [currentPrinterPorts]
  cases hdev : host.devices with
  | none => rfl
  | some text =>
    rw [h.devices text hdev,Option.map_some,Option.getD_some,devices_read]
    exact portOf_devices server hd

theorem currentDefaultPrinter_read (h : Answers server host)
    (hplain : ∀ d ∈ server.default, Colonless d.name) : currentDefaultPrinter host =
      if host.defaultDestination.isSome then server.default.map Destination.name else none := by
  rw [currentDefaultPrinter]
  cases hdef : host.defaultDestination with
  | none => rfl
  | some text =>
    have htext := h.default text hdef
    rw [Option.bind_some,Option.isSome_some,if_pos rfl]
    cases hs : server.default with
    | none =>
      rw [hs] at htext
      exact parseDefaultDestination_none htext
    | some d =>
      rw [hs] at htext
      obtain ⟨language,rfl⟩ := htext
      exact default_read language (hplain d hs)

theorem parseDestinationLine_read (defaultPrinter : Option String)
    (ports : List (String × String)) (d : Destination) :
    parseDestinationLine defaultPrinter ports d.name.toList = some (withPort (portOf ports d.name)
      (newPrinter d.name (defaultPrinter == some d.name))) := by
  have hname : d.name.isEmpty = false := by
    rw [← Bool.not_eq_true,String.isEmpty_iff]
    intro he
    exact d.nonempty (by rw [he]; rfl)
  rw [parseDestinationLine]
  simp only [trimmed_name,String.ofList_toList,hname,Bool.false_eq_true,if_false]

theorem withPort_name (port : Option String) (printer : PrinterInfo) :
    (withPort port printer).name = printer.name := by
  cases port <;> rfl

/-- The entry of one destination, from what the other commands say about it. -/
theorem describe_shown (h : Answers server host)
    (hplain : ∀ d ∈ server.default, Colonless d.name) (hd : d ∈ server.destinations) :
    describe host (withPort (portOf (currentPrinterPorts host) d.name)
      (newPrinter d.name (currentDefaultPrinter host == some d.name))) = shown server host d := by
  have hflag : (currentDefaultPrinter host == some d.name) =
      (host.defaultDestination.isSome &&
        (server.default.map Destination.name == some d.name)) := by
    rw [currentDefaultPrinter_read h hplain]
    cases host.defaultDestination <;> rfl
  rw [hflag,currentPrinterPorts_read h hd,describe,withPort_name]
  cases hdev : host.devices <;> cases hopt : host.options d.name <;>
    cases hattr : host.attributes d.name <;>
      simp [shown,withPort,newPrinter,hdev,hopt,hattr]

theorem listPrinters_read (h : Answers server host)
    (hplain : ∀ d ∈ server.default, Colonless d.name) :
    listPrinters host = .ok (server.destinations.map (shown server host)) := by
  rw [listPrinters,h.destinations]
  simp only [parseLpstatDestinations,destinations_read,List.filterMap_map]
  rw [show (parseDestinationLine (currentDefaultPrinter host) (currentPrinterPorts host) ∘
      fun d : Destination => d.name.toList) = some ∘ (fun d => withPort
        (portOf (currentPrinterPorts host) d.name)
          (newPrinter d.name (currentDefaultPrinter host == some d.name))) from
    funext (parseDestinationLine_read _ _),List.filterMap_eq_map,List.map_map]
  exact congrArg Except.ok (List.map_congr_left (fun d hd => describe_shown h hplain hd))

end Listing

/-- Whichever of the other commands fail: where the name of the default destination holds
no colon, the agent lists the destinations of the print server in their order, each with
its own device, the default one marked, and what is unknown left open; and it prints to
exactly the printers that the server has. -/
theorem listing_exact (server : Server) (host : ListingHost) (h : Answers server host)
    (hplain : ∀ d ∈ server.default, Colonless d.name) :
    listPrinters host = .ok (server.destinations.map (shown server host)) ∧
      ∀ (cups : CupsHost) (name : String), cups.listPrinters = listPrinters host →
        (ensurePrinterExists cups name = .ok () ↔
          ∃ d ∈ server.destinations, d.name = name) := by
  have hread := listPrinters_read h hplain
  refine ⟨hread,fun cups name hcups => ?_⟩
  rw [ensurePrinterExists,hcups,hread]
  have hany : (server.destinations.map (shown server host)).any
      (fun printer => printer.name == name) = true ↔ ∃ d ∈ server.destinations, d.name = name := by
    simp [shown]
  simp only
  split
  · case isTrue ht => exact ⟨fun _ => hany.mp ht,fun _ => rfl⟩
  · case isFalse hf => exact ⟨fun he => (nomatch he),fun he => absurd (hany.mpr he) hf⟩

def laserJet : Destination := ⟨"HP_LaserJet",by decide,by simp [isWhitespace]⟩

def pdfPrinter : Destination := ⟨"PDF",by decide,by simp [isWhitespace]⟩

def officeUri (name : String) : List Char :=
  if name = "PDF" then "file:///tmp/out".toList else "ipp://10.0.0.9/print".toList

theorem officeUri_cases {P : List Char → Prop} (hpdf : P "file:///tmp/out".toList)
    (hipp : P "ipp://10.0.0.9/print".toList) (name : String) : P (officeUri name) := by
  unfold officeUri
  split
  · exact hpdf
  · exact hipp

/-- A server with two printers, on which the options cannot be read. -/
def office : Server where
  destinations := [laserJet,pdfPrinter]
  uri := officeUri
  uri_nonempty := officeUri_cases (P := fun cs => cs ≠ []) (by decide) (by decide)
  uri_trimmed := officeUri_cases (P := fun cs => trimChars cs = cs) (by decide) (by decide)
  uri_line := officeUri_cases (P := fun cs => '\n' ∉ cs) (by decide) (by decide)
  default := some laserJet

def officeHost : ListingHost where
  destinations := .ok (destinationsText office)
  defaultDestination := some (String.ofList (defaultLine .chinese laserJet++['\n']))
  devices := some (devicesText office)
  options := fun _ => none
  attributes := fun _ => none

theorem listing_exact_office :
    listPrinters officeHost = .ok [shown office officeHost laserJet,
      shown office officeHost pdfPrinter] := by
  have hanswers : Answers office officeHost := by
    refine ⟨rfl,fun text ht => ?_,fun text ht => (Option.some.inj ht).symm⟩
    change ∃ language, text = String.ofList (defaultLine language laserJet++['\n'])
    exact ⟨.chinese,(Option.some.inj ht).symm⟩
  have hplain : ∀ d ∈ office.default, Colonless d.name := by
    intro d hd
    rw [← Option.some.inj hd]
    exact ⟨by decide,by decide⟩
  have hread := (listing_exact office officeHost hanswers hplain).1
  rw [hread]
  rfl

end YinShu.CupsListing
