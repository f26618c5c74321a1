import LibraryModels.ModelMap.Json
import LibraryModels.Proofs.Json.Decode
import LibraryModels.Proofs.Json.Source
import LibraryModels.Proofs.ModelMap
import LibraryModels.Proofs.Signature

/-!
# Maps and their JSON text

The members of an object are written to a map one after the other, so a text is read as the map of
the entries that its members describe.  A written map has one member for each signature, and every
member is read back as the entry that it was written for.
-/

namespace LibraryModels

open Json (Error Source Value Integral memberSources)

/-! ## Models -/

namespace Method

theorem integral_toJson (m : Method) : Integral m.toJson := by
  apply Integral.object
  rcases m with _ | _ | _ | _ | _
  all_goals simp [wordJson, Integral.string]

/-- The type says which members there are, and each of them is read as what it was written for. -/
theorem ofSource_toJson (depth : Nat) (m : Method) :
    ofSource (depth + 1) m.toJson.source = .ok m := by
  rcases m with ⟨_, _, kind, provenance⟩ | ⟨_, _, provenance⟩ | ⟨_, _, provenance⟩ | provenance | _
  · rcases kind <;> rcases provenance <;> rfl
  · rcases provenance <;> rfl
  · rcases provenance <;> rfl
  · rcases provenance <;> rfl
  · rfl

end Method

namespace ModelMap

variable {models : ModelMap} {depth : Nat} {s : String}

/-! ## The entries of a text -/

/-- The entry that a member of an object describes. -/
def entryOfMember (depth : Nat) (member : Option String × Source) : Except Error Entry :=
  match member.1 with
  | some key => do
    let g ← Signature.decodeText key
    let method ← Method.ofSource depth member.2
    return (g, method)
  | none => .error .malformed

/-- The entries that the members of an object describe, in the order of the text. -/
def entriesOfSource (depth : Nat) : Source → Except Error (List Entry)
  | .object members closed =>
    Json.enter depth fun depth => do
      let entries ← members.mapM (entryOfMember depth)
      Json.requireClosed closed entries
  | s => s.mismatch "a map"

/-- The entries that a text describes, or why it is refused. -/
def entriesOfJsonText (s : String) : Except Error (List Entry) :=
  Source.decodeText entriesOfSource s

theorem foldMembers_insert
    (members : List (Option String × Source)) (closed : Bool) (models : ModelMap) :
    Source.foldMembers
        (fun m key item => do
          let g ← Signature.decodeText key
          let method ← Method.ofSource depth item
          return m.insert g method)
        models members closed =
      models.extend <$>
        (members.mapM (entryOfMember depth) >>= Json.requireClosed closed) := by
  induction members generalizing models with
  | nil => exact (Json.map_requireClosed models.extend closed []).symm
  | cons member members ih =>
      obtain ⟨_ | key, item⟩ := member
      · rfl
      · rw [Source.foldMembers_cons, List.mapM_cons]
        simp only [entryOfMember, bind_assoc, pure_bind, map_bind, ih, Json.map_requireClosed]
        rfl

theorem ofSource_eq (depth : Nat) (source : Source) :
    ofSource depth source = ofList <$> entriesOfSource depth source := by
  rcases source with _ | _ | n | s | _ | ⟨members, closed⟩ | _
  case object =>
    rcases depth with _ | depth
    · rfl
    · exact foldMembers_insert members closed empty
  all_goals exact (Source.map_mismatch ofList "a map" _).symm

/-- A text is read as the map of the entries that it describes, or refused for the same reason. -/
theorem ofJsonText_eq (s : String) :
    ofJsonText s = ofList <$> entriesOfJsonText s := by
  rw [ofJsonText, entriesOfJsonText, Source.decodeText, Source.decodeText]
  simp only [ofSource_eq, bind_map_left, map_bind, Json.map_requireClosed]

/-! ## Written maps -/

theorem integral_toJson (models : ModelMap) :
    Integral models.toJson := by
  apply Integral.object
  intro member hmember
  obtain ⟨e, -, rfl⟩ := List.mem_map.1 hmember
  exact e.2.integral_toJson

theorem source_toJson (models : ModelMap) :
    models.toJson.source =
      .object (models.entries.map fun e => (some e.1.text, e.2.toJson.source)) true := by
  rw [toJson, Value.source, Json.memberSources_eq_map, List.map_map]
  rfl

/-- A written entry is read as itself. -/
theorem entryOfMember_text (e : Entry) :
    entryOfMember (depth + 1) (some e.1.text, e.2.toJson.source) = .ok e := by
  have hkey : Signature.decodeText e.1.text = .ok e.1 := by
    rw [Signature.decodeText, Signature.ofText?_text]
  rw [entryOfMember]
  simp only [hkey, Method.ofSource_toJson]
  rfl

theorem mapM_entryOfMember (entries : List Entry) :
    (entries.map fun e => (some e.1.text, e.2.toJson.source)).mapM (entryOfMember (depth + 1)) =
      .ok entries := by
  rw [mapM_eq_ok_iff, List.map_map]
  apply List.map_congr_left
  intro e _
  exact entryOfMember_text e

theorem entriesOfJsonText_jsonText (models : ModelMap) :
    entriesOfJsonText models.jsonText = .ok models.entries := by
  have htext : Source.ofText models.jsonText = (models.toJson.source, true) :=
    Source.ofText_text models.integral_toJson
  have hentries : entriesOfSource Json.nestingLimit models.toJson.source = .ok models.entries := by
    rw [source_toJson, entriesOfSource, Json.nestingLimit, Json.enter, mapM_entryOfMember]
    rfl
  rw [entriesOfJsonText, Source.decodeText, htext]
  simp only [hentries]
  rfl

/--
The text of a map is read as the map itself, whatever the strings of its entries hold, and is one
object whose names are the canonical texts of the signatures, all different.
-/
theorem ofJsonText_jsonText (models : ModelMap) :
    ofJsonText models.jsonText = .ok models ∧
      ∃ members, Source.ofText models.jsonText = (.object members true, true) ∧
        members.map Prod.fst = models.entries.map (fun e => some e.1.text) ∧
        (members.map Prod.fst).Nodup := by
  have hnames : (models.entries.map fun e => (some e.1.text, e.2.toJson.source)).map Prod.fst =
      models.entries.map fun e => some e.1.text := List.map_map
  constructor
  · rw [ofJsonText_eq, entriesOfJsonText_jsonText]
    exact congrArg Except.ok (ofList_eq_of_mem_iff fun _ => Iff.rfl)
  · refine ⟨_, ?_, hnames, ?_⟩
    · rw [jsonText, Source.ofText_text models.integral_toJson, source_toJson]
    · have htext : Function.Injective fun g : Signature => some g.text :=
        (Option.some_injective String).comp Signature.text_injective
      have hdistinct := models.ascending.nodup_map_fst.map htext
      rw [List.map_map] at hdistinct
      rw [hnames]
      exact hdistinct

end ModelMap

end LibraryModels
