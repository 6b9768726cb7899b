import Visr.Librbbl.FilterCoefficients
import Visr.Librbbl.WholeNumber

/-!
# Equalisers as JSON and XML texts

The sections of an equaliser are written to a property tree, to a stream or to a string, each in
JSON or XML, and read from them.  A text is written by the functions for trees and those of the
libraries, unless one of them is left out or replaced by another one.

## Main results

* `ParametricIirCoefficient.loadXml_writeXml` — attributes are read back, apart from small gains.
* `ParametricIirCoefficientList.readBack_iff` — **the texts that are read back**.
-/

namespace Visr

open PropertyTree FloatArithmetic

/-! ### The XML library -/

/-- The XML library.  The attributes of an element are the children of its child `<xmlattr>`. -/
structure XmlLibrary where
  writeXml : PropertyTree → Except Exception (List UInt8)
  /-- Reads a document from a stream. -/
  readXml : List UInt8 → Except Exception PropertyTree
  /-- Reads a document from the file with a name. -/
  readXmlFile : List UInt8 → Except Exception PropertyTree

namespace XmlLibrary

/-- Only the elements have attributes.  The root of a tree is the document. -/
def DocumentsHaveNoAttributes (xml : XmlLibrary) : Prop :=
  ∀ text t, xml.readXml text = .ok t ∨ xml.readXmlFile text = .ok t → t.find? "<xmlattr>" = none

/-- The library writes a tree and reads the same tree back. -/
def ReadsBack (xml : XmlLibrary) (t : PropertyTree) : Prop :=
  ∃ message, xml.writeXml t = .ok message ∧ xml.readXml message = .ok t

end XmlLibrary

/-! ### Reading and writing texts -/

section Texts

variable {α : Type}

/-- Reads a tree, whose errors are reported with a description, and a value from it. -/
def loadText (read : List UInt8 → Except Exception PropertyTree) (description : String)
    (load : PropertyTree → Except Abort α) (text : List UInt8) : Except Abort α :=
  match read text with
  | .error ex => .error (.exception (.invalidArgument (description ++ ex.what)))
  | .ok tree => load tree

/-- Writes a tree, whose errors are reported with a description. -/
def writeText (write : PropertyTree → Except Exception (List UInt8)) (tree : PropertyTree) :
    Except Exception (List UInt8) :=
  match write tree with
  | .error ex => .error (.invalidArgument ("Serialisation of EQ parameters failed: " ++ ex.what))
  | .ok text => .ok text

/-- The value is read from the text that is written for it. -/
def ReadBack (written : Except Exception (List UInt8)) (load : List UInt8 → Except Abort α)
    (value : α) : Prop :=
  ∃ text, written = .ok text ∧ load text = .ok value

/-- A text is written to a stream or to a string, and read from one of these. -/
inductive TextOverload
  | stream
  | string

theorem loadText_eq_ok_iff {read : List UInt8 → Except Exception PropertyTree}
    {description : String} {load : PropertyTree → Except Abort α} {text : List UInt8} {value : α} :
    loadText read description load text = .ok value ↔
      ∃ tree, read text = .ok tree ∧ load tree = .ok value := by
  unfold loadText
  cases read text with
  | error ex => exact ⟨nofun, nofun⟩
  | ok tree =>
    constructor
    · intro h
      exact ⟨tree, rfl, h⟩
    · rintro ⟨tree', htree, h⟩
      cases htree
      exact h

/-- A text that is read back as the same tree. -/
theorem readBack_iff_of_readsBack {write : PropertyTree → Except Exception (List UInt8)}
    {read : List UInt8 → Except Exception PropertyTree} {tree : PropertyTree}
    (h : ∃ message, write tree = .ok message ∧ read message = .ok tree) (description : String)
    (load : PropertyTree → Except Abort α) (value : α) :
    ReadBack (writeText write tree) (loadText read description load) value ↔
      load tree = .ok value := by
  obtain ⟨message, hwrite, hread⟩ := h
  unfold ReadBack writeText
  rw [hwrite]
  constructor
  · rintro ⟨text, htext, hload⟩
    cases htext
    obtain ⟨tree', htree, hload⟩ := loadText_eq_ok_iff.mp hload
    obtain rfl : tree = tree' := Except.ok.inj (hread.symm.trans htree)
    exact hload
  · intro hload
    exact ⟨message, rfl, loadText_eq_ok_iff.mpr ⟨tree, hread, hload⟩⟩

end Texts

variable {F : Type} [FloatArithmetic F] (env : Platform F) (xml : XmlLibrary)

/-! ### Sections -/

namespace ParametricIirCoefficient

/-- The tree is also printed. -/
def loadXml (tree : PropertyTree) : Except Abort (ParametricIirCoefficient F) := do
  let typeStr ← tree.get some ["<xmlattr>", "type"]
  let typeId ← ParametricIirType.stringToTypeId typeStr
  let frequency ← tree.get env.getFloat ["<xmlattr>", "f"]
  let quality ← tree.get env.getFloat ["<xmlattr>", "q"]
  let gainOpt := tree.getOptional env.getFloat ["<xmlattr>", "gain"]
  return { type := typeId, frequency := frequency, quality := quality, gain := gainOpt.getD 0 }

def writeXml (c : ParametricIirCoefficient F) (tree : PropertyTree) : PropertyTree :=
  let tree := tree.put ["<xmlattr>", "type"] c.type.typeIdToString
  let tree := tree.put ["<xmlattr>", "f"] (env.putFloat c.frequency)
  let tree := tree.put ["<xmlattr>", "q"] (env.putFloat c.quality)
  if c.gainWritten then tree.put ["<xmlattr>", "gain"] (env.putFloat c.gain) else tree

def loadJsonStream (stream : List UInt8) : Except Abort (ParametricIirCoefficient F) :=
  loadText env.readJson "Error while parsing a json ParametricIirCoefficient node: "
    (loadJson env) stream

def loadJsonString (str : List UInt8) : Except Abort (ParametricIirCoefficient F) :=
  loadJsonStream env str

def loadXmlStream (stream : List UInt8) : Except Abort (ParametricIirCoefficient F) :=
  loadText xml.readXml "Error while parsing a XML ParametricIirCoefficient node: "
    (loadXml env) stream

/-- The string is taken for the name of a file. -/
def loadXmlString (str : List UInt8) : Except Abort (ParametricIirCoefficient F) :=
  loadText xml.readXmlFile "Error while parsing a XML ParametricIirCoefficient node: "
    (loadXml env) str

/-- A tree is made, but it is not written to the stream. -/
def writeJsonStream (c : ParametricIirCoefficient F) : Except Exception (List UInt8) :=
  let _tree := c.writeJson env new
  .ok []

def writeJsonString (c : ParametricIirCoefficient F) : Except Exception (List UInt8) :=
  c.writeJsonStream env

def writeXmlStream (c : ParametricIirCoefficient F) : Except Exception (List UInt8) :=
  xml.writeXml (c.writeXml env new)

def writeXmlString (c : ParametricIirCoefficient F) : Except Exception (List UInt8) :=
  c.writeXmlStream env xml

def loadJsonText : TextOverload → List UInt8 → Except Abort (ParametricIirCoefficient F)
  | .stream => loadJsonStream env
  | .string => loadJsonString env

def loadXmlText : TextOverload → List UInt8 → Except Abort (ParametricIirCoefficient F)
  | .stream => loadXmlStream env xml
  | .string => loadXmlString env xml

def writeJsonText (c : ParametricIirCoefficient F) : TextOverload → Except Exception (List UInt8)
  | .stream => c.writeJsonStream env
  | .string => c.writeJsonString env

def writeXmlText (c : ParametricIirCoefficient F) : TextOverload → Except Exception (List UInt8)
  | .stream => c.writeXmlStream env xml
  | .string => c.writeXmlString env xml

variable {env} {xml}

/-- The attributes are those of the JSON representation. -/
theorem find?_writeXml (c : ParametricIirCoefficient F) :
    (c.writeXml env new).find? "<xmlattr>" = some (c.writeJson env new) := by
  unfold writeXml writeJson
  cases c.gainWritten <;> simp

/-- There are no attributes in the JSON representation. -/
theorem find?_writeJson (c : ParametricIirCoefficient F) :
    (c.writeJson env new).find? "<xmlattr>" = none := by
  unfold writeJson
  cases c.gainWritten <;> simp

theorem loadXml_of_find? {tree attributes : PropertyTree}
    (h : tree.find? "<xmlattr>" = some attributes) {c : ParametricIirCoefficient F}
    (hload : loadJson env attributes = .ok c) : loadXml env tree = .ok c := by
  have hchild : ∀ key, tree.getChild? ["<xmlattr>", key] = attributes.getChild? [key] := by
    intro key
    rw [getChild?, h, Option.bind_some]
  -- the path of a missing node is part of the message, but nothing is missing here
  have hget : ∀ {α : Type} {read : String → Option α} {key : String} {value : α},
      attributes.get read [key] = .ok value → tree.get read ["<xmlattr>", key] = .ok value := by
    intro α read key value hvalue
    unfold PropertyTree.get getChild at hvalue ⊢
    rw [hchild]
    cases hnode : attributes.getChild? [key] with
    | none =>
      rw [hnode] at hvalue
      cases hvalue
    | some child =>
      rw [hnode] at hvalue
      exact hvalue
  have hoptional : tree.getOptional env.getFloat ["<xmlattr>", "gain"] =
      attributes.getOptional env.getFloat ["gain"] := by
    rw [getOptional, getOptional, hchild]
  obtain ⟨typeStr, htype, hload⟩ := exists_of_bind_ok hload
  obtain ⟨frequency, hf, hload⟩ := exists_of_bind_ok hload
  obtain ⟨quality, hq, hload⟩ := exists_of_bind_ok hload
  obtain ⟨typeId, hid, hload⟩ := exists_of_bind_ok hload
  unfold loadXml
  rw [hget htype, ok_bind, hid, ok_bind, hget hf, ok_bind, hget hq, ok_bind, hoptional]
  exact hload

/-- **A section is read back from its attributes**, apart from a small gain. -/
theorem loadXml_writeXml (h : env.NumbersReadBack) (c : ParametricIirCoefficient F) :
    loadXml env (c.writeXml env new) = .ok c.withoutSmallGain := by
  apply loadXml_of_find? c.find?_writeXml
  exact loadJson_writeJson h c

theorem loadXml_ne_ok {tree : PropertyTree} (h : tree.find? "<xmlattr>" = none)
    (c : ParametricIirCoefficient F) : loadXml env tree ≠ .ok c := by
  intro hload
  obtain ⟨typeStr, htype, -⟩ := exists_of_bind_ok hload
  unfold PropertyTree.get getChild at htype
  rw [getChild?, h, Option.bind_none] at htype
  cases htype

/-- **No section is read from a JSON text** that was written for it, as this is empty. -/
theorem not_readBack_json (hempty : ∃ ex, env.readJson [] = .error ex)
    (c : ParametricIirCoefficient F) (w r : TextOverload) :
    ¬ReadBack (c.writeJsonText env w) (loadJsonText env r) c := by
  obtain ⟨ex, hempty⟩ := hempty
  rintro ⟨text, htext, hload⟩
  have hnil : text = [] := by
    cases w with
    | stream => exact (Except.ok.inj htext).symm
    | string => exact (Except.ok.inj htext).symm
  have hread : loadJsonStream env text = .ok c := by
    cases r with
    | stream => exact hload
    | string => exact hload
  obtain ⟨tree, htree, -⟩ := loadText_eq_ok_iff.mp hread
  rw [hnil, hempty] at htree
  cases htree

/-- **No section is read from an XML text**, as the attributes are those of an element. -/
theorem not_readBack_xml (hxml : xml.DocumentsHaveNoAttributes) (c : ParametricIirCoefficient F)
    (w r : TextOverload) : ¬ReadBack (c.writeXmlText env xml w) (loadXmlText env xml r) c := by
  rintro ⟨text, -, hload⟩
  cases r with
  | stream =>
    obtain ⟨tree, htree, hload⟩ := loadText_eq_ok_iff.mp hload
    exact loadXml_ne_ok (hxml text tree (Or.inl htree)) c hload
  | string =>
    obtain ⟨tree, htree, hload⟩ := loadText_eq_ok_iff.mp hload
    exact loadXml_ne_ok (hxml text tree (Or.inr htree)) c hload

end ParametricIirCoefficient

/-! ### Lists of sections -/

namespace ParametricIirCoefficientList

/-- The elements are the children `eq`, and others are skipped. -/
def loadXml (tree : PropertyTree) : Except Abort (List (ParametricIirCoefficient F)) :=
  loadAll (ParametricIirCoefficient.loadXml env) (tree.equalRange "eq")

def writeJson (coeffs : List (ParametricIirCoefficient F)) (tree : PropertyTree) : PropertyTree :=
  tree.addChildren "" (coeffs.map fun el => el.writeJson env new)

def loadJsonStream (stream : List UInt8) : Except Abort (List (ParametricIirCoefficient F)) :=
  loadText env.readJson "Error while parsing a json ParametricIirCoefficientList node: "
    (loadJson env) stream

def loadJsonString (str : List UInt8) : Except Abort (List (ParametricIirCoefficient F)) :=
  loadJsonStream env str

def loadXmlStream (stream : List UInt8) : Except Abort (List (ParametricIirCoefficient F)) :=
  loadText xml.readXml "Error while parsing an Xml ParametricIirCoefficientList node: "
    (loadXml env) stream

def loadXmlString (str : List UInt8) : Except Abort (List (ParametricIirCoefficient F)) :=
  loadXmlStream env xml str

def writeJsonStream (coeffs : List (ParametricIirCoefficient F)) : Except Exception (List UInt8) :=
  writeText env.writeJson (writeJson env coeffs new)

def writeJsonString (coeffs : List (ParametricIirCoefficient F)) : Except Exception (List UInt8) :=
  writeJsonStream env coeffs

def writeXmlStream (coeffs : List (ParametricIirCoefficient F)) : Except Exception (List UInt8) :=
  writeText xml.writeXml (writeXml env coeffs new)

def writeXmlString (coeffs : List (ParametricIirCoefficient F)) : Except Exception (List UInt8) :=
  writeXmlStream env xml coeffs

def loadJsonText : TextOverload → List UInt8 → Except Abort (List (ParametricIirCoefficient F))
  | .stream => loadJsonStream env
  | .string => loadJsonString env

def loadXmlText : TextOverload → List UInt8 → Except Abort (List (ParametricIirCoefficient F))
  | .stream => loadXmlStream env xml
  | .string => loadXmlString env xml

def writeJsonText (coeffs : List (ParametricIirCoefficient F)) :
    TextOverload → Except Exception (List UInt8)
  | .stream => writeJsonStream env coeffs
  | .string => writeJsonString env coeffs

def writeXmlText (coeffs : List (ParametricIirCoefficient F)) :
    TextOverload → Except Exception (List UInt8)
  | .stream => writeXmlStream env xml coeffs
  | .string => writeXmlString env xml coeffs

variable {env} {xml}

/-- **A list of sections is read back** from an array, apart from small gains. -/
theorem loadJson_writeJson (h : env.NumbersReadBack) (coeffs : List (ParametricIirCoefficient F)) :
    loadJson env (writeJson env coeffs new) =
      .ok (coeffs.map ParametricIirCoefficient.withoutSmallGain) :=
  loadJson_addChildren h "" coeffs

theorem map_withoutSmallGain_eq_iff {coeffs : List (ParametricIirCoefficient F)} :
    coeffs.map ParametricIirCoefficient.withoutSmallGain = coeffs ↔
      ∀ c ∈ coeffs, c.gain = 0 ∨ c.gainWritten = true := by
  have hid : coeffs = coeffs.map id := (List.map_id coeffs).symm
  nth_rewrite 2 [hid]
  rw [List.map_inj_left]
  apply forall₂_congr
  intro c _
  exact ParametricIirCoefficient.withoutSmallGain_eq_iff

/-- **Only the empty list is read back from XML**, since the sections are written as elements, but
read from attributes. -/
theorem loadXml_writeXml_iff {coeffs : List (ParametricIirCoefficient F)} :
    loadXml env (writeXml env coeffs new) = .ok coeffs ↔ coeffs = [] := by
  rw [loadXml, writeXml, equalRange_addChildren, equalRange_new, List.nil_append]
  constructor
  · intro h
    cases coeffs with
    | nil => rfl
    | cons c coeffs =>
      obtain ⟨first, hfirst, -⟩ := exists_of_bind_ok h
      exact absurd hfirst (ParametricIirCoefficient.loadXml_ne_ok c.find?_writeJson first)
  · rintro rfl
    rfl

theorem readBack_json_iff (h : env.NumbersReadBack) {coeffs : List (ParametricIirCoefficient F)}
    (hjson : env.JsonReadsBack (writeJson env coeffs new)) (w r : TextOverload) :
    ReadBack (writeJsonText env coeffs w) (loadJsonText env r) coeffs ↔
      ∀ c ∈ coeffs, c.gain = 0 ∨ c.gainWritten = true := by
  have hstream : ReadBack (writeJsonStream env coeffs) (loadJsonStream env) coeffs ↔
      ∀ c ∈ coeffs, c.gain = 0 ∨ c.gainWritten = true := by
    refine (readBack_iff_of_readsBack hjson _ _ _).trans ?_
    rw [loadJson_writeJson h, Except.ok.injEq, map_withoutSmallGain_eq_iff]
  cases w <;> cases r <;> exact hstream

theorem readBack_xml_iff {coeffs : List (ParametricIirCoefficient F)}
    (hxml : xml.ReadsBack (writeXml env coeffs new)) (w r : TextOverload) :
    ReadBack (writeXmlText env xml coeffs w) (loadXmlText env xml r) coeffs ↔ coeffs = [] := by
  have hstream : ReadBack (writeXmlStream env xml coeffs) (loadXmlStream env xml) coeffs ↔
      coeffs = [] := by
    refine (readBack_iff_of_readsBack hxml _ _ _).trans ?_
    exact loadXml_writeXml_iff
  cases w <;> cases r <;> exact hstream

/-- **The texts that are read back** are those of lists as JSON, if no gain is too small, and of
empty lists as XML. -/
theorem readBack_iff (h : env.NumbersReadBack) (hempty : ∃ ex, env.readJson [] = .error ex)
    (hattributes : xml.DocumentsHaveNoAttributes) (c : ParametricIirCoefficient F)
    {coeffs : List (ParametricIirCoefficient F)}
    (hjson : env.JsonReadsBack (writeJson env coeffs new))
    (hxml : xml.ReadsBack (writeXml env coeffs new)) (w r : TextOverload) :
    ¬ReadBack (c.writeJsonText env w) (ParametricIirCoefficient.loadJsonText env r) c ∧
    ¬ReadBack (c.writeXmlText env xml w) (ParametricIirCoefficient.loadXmlText env xml r) c ∧
    (ReadBack (writeJsonText env coeffs w) (loadJsonText env r) coeffs ↔
      ∀ c ∈ coeffs, c.gain = 0 ∨ c.gainWritten = true) ∧
    (ReadBack (writeXmlText env xml coeffs w) (loadXmlText env xml r) coeffs ↔ coeffs = []) := by
  refine ⟨?_, ?_, ?_, ?_⟩
  · exact ParametricIirCoefficient.not_readBack_json hempty c w r
  · exact ParametricIirCoefficient.not_readBack_xml hattributes c w r
  · exact readBack_json_iff h hjson w r
  · exact readBack_xml_iff hxml w r

/-! ### A section and its texts -/

open WholeNumber

def peakSection : ParametricIirCoefficient WholeNumber :=
  { type := .peak, frequency := ⟨1⟩, quality := ⟨1⟩, gain := ⟨2⟩ }

/-- The children of the section. -/
def peakTree : PropertyTree :=
  node "" [("type", node "peak" []), ("f", node "1" []), ("q", node "1" []), ("gain", node "2" [])]

/-- The JSON text of a list with the section. -/
def peakJson : List UInt8 :=
  ("\x7b\n    \"\": \x7b\n        \"type\": \"peak\",\n        \"f\": \"1\",\n" ++
    "        \"q\": \"1\",\n        \"gain\": \"2\"\n    \x7d\n\x7d\n").toUTF8.toList

/-- The XML text of a document without elements. -/
def xmlDeclaration : String := "<?xml version=\"1.0\" encoding=\"utf-8\"?>\n"

/-- The XML text of a list with the section. -/
def peakXml : List UInt8 :=
  (xmlDeclaration ++
    "<eq><type>peak</type><f>1</f><q>1</q><gain>2</gain></eq>").toUTF8.toList

def peakPlatform : Platform WholeNumber := platform [(peakJson, node "" [("", peakTree)])]

/-- The library, with the texts of a list with the section and of a document without elements. -/
def peakLibrary : XmlLibrary where
  writeXml t :=
    match t.find? "eq" with
    | some _ => .ok peakXml
    | none => .ok xmlDeclaration.toUTF8.toList
  readXml text :=
    if text = peakXml then .ok (node "" [("eq", peakTree)])
    else if text = xmlDeclaration.toUTF8.toList then .ok new
    else .error (.runtimeError "<unspecified file>(1): expected <")
  readXmlFile _ := .error (.runtimeError "<unspecified file>: cannot open file")

theorem readJson_nil_peakPlatform : ∃ ex, peakPlatform.readJson [] = .error ex := by
  have hne : ¬peakJson = [] := by decide +kernel
  have hfind : [(peakJson, node "" [("", peakTree)])].find? (fun entry => entry.1 = []) = none := by
    rw [List.find?_cons_of_neg (by simpa using hne), List.find?_nil]
  unfold peakPlatform platform
  dsimp only
  rw [hfind]
  exact ⟨_, rfl⟩

theorem documentsHaveNoAttributes_peakLibrary : peakLibrary.DocumentsHaveNoAttributes := by
  rintro text t (h | h)
  · unfold peakLibrary at h
    dsimp only at h
    split at h
    · cases h
      rfl
    · split at h
      · cases h
        rfl
      · cases h
  · cases h

theorem readBack_iff_peak :
    ¬ReadBack (peakSection.writeJsonText peakPlatform .stream)
      (ParametricIirCoefficient.loadJsonText peakPlatform .string) peakSection ∧
    ¬ReadBack (peakSection.writeXmlText peakPlatform peakLibrary .stream)
      (ParametricIirCoefficient.loadXmlText peakPlatform peakLibrary .string) peakSection ∧
    (ReadBack (writeJsonText peakPlatform [peakSection] .stream)
      (loadJsonText peakPlatform .string) [peakSection] ↔
      ∀ c ∈ [peakSection], c.gain = 0 ∨ c.gainWritten = true) ∧
    (ReadBack (writeXmlText peakPlatform peakLibrary [peakSection] .stream)
      (loadXmlText peakPlatform peakLibrary .string) [peakSection] ↔ [peakSection] = []) := by
  have hjson : peakPlatform.JsonReadsBack (writeJson peakPlatform [peakSection] new) :=
    ⟨peakJson, rfl, readJson_platform peakJson _ []⟩
  have hxml : peakLibrary.ReadsBack (writeXml peakPlatform [peakSection] new) :=
    ⟨peakXml, rfl, if_pos rfl⟩
  exact readBack_iff (numbersReadBack_platform _) readJson_nil_peakPlatform
    documentsHaveNoAttributes_peakLibrary peakSection hjson hxml .stream .string

/-- Nothing is written for the section, and nothing is read from this. -/
theorem loadJson_writeJsonStream_peak :
    peakPlatform.NumbersReadBack ∧
    ¬ReadBack (peakSection.writeJsonStream peakPlatform)
      (ParametricIirCoefficient.loadJsonStream peakPlatform) peakSection := by
  refine ⟨numbersReadBack_platform _, ?_⟩
  rintro ⟨text, htext, hload⟩
  cases htext
  obtain ⟨tree, htree, -⟩ := loadText_eq_ok_iff.mp hload
  obtain ⟨ex, hempty⟩ := readJson_nil_peakPlatform
  rw [hempty] at htree
  cases htree

end ParametricIirCoefficientList

end Visr
