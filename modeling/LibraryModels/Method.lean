import LibraryModels.Named

/-!
# Flow models of methods

What is known about the data flow through one callable: a summary passes data on, a sink consumes
it, a source introduces it, a neutral callable does nothing. `Method.unmodeled` is the absence of
a model; it can stand in a map but is never stored.
-/

namespace LibraryModels

/-- The kinds of models that a query can produce. -/
inductive Kind where
  | summary
  | sink
  | source
  | neutral
deriving DecidableEq, Repr

/-- How a summary derives its output from its input. -/
inductive SummaryKind where
  | taint
  | value
deriving DecidableEq, Repr

/-- Where a model came from. -/
inductive Provenance where
  | manual
  | generated
  | dfGenerated
  | dfManual
  | aiGenerated
  | aiManual
deriving DecidableEq, Repr

/-- The data-flow model of one callable. -/
inductive Method where
  /-- Data flows from `input` to `output`. -/
  | summary (input output : String) (kind : SummaryKind) (provenance : Provenance)
  /-- Data that reaches `input` is used unsafely. -/
  | sink (input kind : String) (provenance : Provenance)
  /-- Untrusted data appears at `output`. -/
  | source (output kind : String) (provenance : Provenance)
  /-- Nothing flows. -/
  | neutral (provenance : Provenance)
  /-- No model. -/
  | unmodeled
deriving DecidableEq, Repr

/-- The kind of a method, where `unmodeled` counts as one. -/
inductive MethodType where
  | model (kind : Kind)
  | unmodeled
deriving DecidableEq, Repr

instance : Inhabited Method := ⟨.unmodeled⟩

instance : Inhabited MethodType := ⟨.unmodeled⟩

instance : Vocabulary Kind where
  all := [.summary, .sink, .source, .neutral]
  name
    | .summary => "summary"
    | .sink => "sink"
    | .source => "source"
    | .neutral => "neutral"

instance : Vocabulary SummaryKind where
  all := [.taint, .value]
  name
    | .taint => "taint"
    | .value => "value"

instance : Vocabulary Provenance where
  all := [.manual, .generated, .dfGenerated, .dfManual, .aiGenerated, .aiManual]
  name
    | .manual => "manual"
    | .generated => "generated"
    | .dfGenerated => "df-generated"
    | .dfManual => "df-manual"
    | .aiGenerated => "ai-generated"
    | .aiManual => "ai-manual"

instance : Vocabulary MethodType where
  all := [.model .summary, .model .sink, .model .source, .model .neutral, .unmodeled]
  name
    | .model kind => Vocabulary.name kind
    | .unmodeled => "none"

instance : LawfulVocabulary Kind where
  ofName?_name a := by cases a <;> decide

instance : LawfulVocabulary SummaryKind where
  ofName?_name a := by cases a <;> decide

instance : LawfulVocabulary Provenance where
  ofName?_name a := by cases a <;> decide

instance : LawfulVocabulary MethodType where
  ofName?_name a := by
    cases a with
    | model kind => cases kind <;> decide
    | unmodeled => decide

namespace Kind

/-- The kinds in the order in which they are generated and stored. -/
abbrev all : List Kind := Vocabulary.all

/-- The written form of a kind. -/
abbrev name (kind : Kind) : String := Vocabulary.name kind

/-- The extensible predicate that rows of this kind are added to. -/
def predicate : Kind → String
  | .summary => "summaryModel"
  | .sink => "sinkModel"
  | .source => "sourceModel"
  | .neutral => "neutralModel"

/-- The kind whose rows the predicate `s` takes, if any. -/
def ofPredicate? (s : String) : Option Kind :=
  all.find? fun kind => kind.predicate == s

theorem ofPredicate?_predicate
    (kind : Kind) :
    ofPredicate? kind.predicate = some kind := by
  cases kind <;> decide

theorem ofPredicate?_eq_some_iff
    {s : String} {kind : Kind} :
    ofPredicate? s = some kind ↔ s = kind.predicate := by
  constructor
  · intro h
    unfold ofPredicate? at h
    have : (kind.predicate == s) = true := List.find?_some (p := fun k : Kind => k.predicate == s) h
    exact (beq_iff_eq.1 this).symm
  · rintro rfl
    exact ofPredicate?_predicate kind

end Kind

namespace Method

/-- The kind of a model; `unmodeled` has none. -/
def kind? : Method → Option Kind
  | .summary .. => some .summary
  | .sink .. => some .sink
  | .source .. => some .source
  | .neutral .. => some .neutral
  | .unmodeled => none

/-- The type of a model, `unmodeled` included. -/
def type (m : Method) : MethodType :=
  match m.kind? with
  | some kind => .model kind
  | none => .unmodeled

end Method

end LibraryModels
