import LibraryModels.Proofs.Generator.Run

/-!
# Runs that nobody interrupts

Cancellation is requested while a call is at work.  If no call brings a request along, and no call
ends as cancelled by itself, a run is over only when all stages are done or one of them fails.  The
engine may be asked several times in such a run, and what each call keeps of its state the whole
run keeps.
-/

namespace LibraryModels

variable {ε τ α : Type} {R : ε → ε → Prop}

/-- A call during which nobody asks to cancel. -/
structure Reply.Calm (reply : Reply α) : Prop where
  cancels : reply.cancels = false
  result : reply.result ≠ .error .cancelled

/-- As long as nothing was cancelled every call is calm, and the engine moves along `R`. -/
structure Engine.Calm (engine : Engine ε) (R : ε → ε → Prop) : Prop where
  run : ∀ database query s,
    (engine.run database query false s).1.reply.Calm ∧
      R s (engine.run database query false s).2
  info : ∀ results s, (engine.info results s).1.Calm ∧ R s (engine.info results s).2
  decode : ∀ results set s,
    (engine.decode results set s).1.Calm ∧ R s (engine.decode results set s).2

/-- Every call of the sink is calm, in whatever state it is. -/
def Sink.Calm (sink : Sink τ) : Prop :=
  ∀ kind results s, (sink.accept kind results s).1.Calm

namespace Generator

variable {g : Generator ε τ} {stage : Stage} {r : StageRecord} {s t u : RunState ε τ}

/-- Nothing is cancelled, and the engine has moved along `R`. -/
structure Moved (R : ε → ε → Prop) (s t : RunState ε τ) : Prop where
  live : t.cancelled = false
  engine : R s.engine t.engine

namespace Moved

theorem refl
    (hrefl : ∀ a, R a a) (hlive : s.cancelled = false) :
    Moved R s s where
  live := hlive
  engine := hrefl s.engine

theorem trans
    (htrans : ∀ a b c, R a b → R b c → R a c) (h : Moved R s t) (h' : Moved R t u) :
    Moved R s u where
  live := h'.live
  engine := htrans _ _ _ h.engine h'.engine

theorem noted
    (h : Moved R s t) (events : List Event) :
    Moved R s (t.noted events) where
  live := h.live
  engine := h.engine

theorem asked
    {reply : Reply α} {engine : ε}
    (hlive : s.cancelled = false) (hcalm : reply.Calm) (hmoved : R s.engine engine)
    (events : List Event) :
    Moved R s (s.asked engine reply.cancels events) where
  live := by
    show (s.cancelled || reply.cancels) = false
    rw [hlive, hcalm.cancels]
    rfl
  engine := hmoved

/-! ## The calls of a stage -/

section Calls

variable (hengine : g.engine.Calm R) (htrans : ∀ a b c, R a b → R b c → R a c)
include hengine htrans

theorem queried
    {q : QueryReply}
    (h : Moved R s t) (hquery : g.queried stage t = (q, u)) :
    Moved R s u ∧ q.reply.Calm := by
  have hrun := hengine.run g.database (g.query stage) t.engine
  rw [← h.live] at hrun
  cases hquery
  exact ⟨h.trans htrans (.asked h.live hrun.1 hrun.2 _), hrun.1⟩

theorem informed
    {results : FilePath} {i : Reply ResultsInfo}
    (h : Moved R s t) (hinfo : g.informed results t = (i, u)) :
    Moved R s u ∧ i.Calm := by
  have hcall := hengine.info results t.engine
  cases hinfo
  exact ⟨h.trans htrans (.asked h.live hcall.1 hcall.2 _), hcall.1⟩

theorem decoded
    {results : FilePath} {set : String} {d : Reply Table}
    (h : Moved R s t) (hdecode : g.decoded results set t = (d, u)) :
    Moved R s u ∧ d.Calm := by
  have hcall := hengine.decode results set t.engine
  cases hdecode
  exact ⟨h.trans htrans (.asked h.live hcall.1 hcall.2 _), hcall.1⟩

end Calls

theorem accepted
    {kind : Kind} {results : List Entry} {a : Reply Unit}
    (hsink : g.sink.Calm) (h : Moved R s t) (haccept : g.accepted kind results t = (a, u)) :
    Moved R s u ∧ a.Calm := by
  have hcall := hsink kind results t.sink
  cases haccept
  refine ⟨⟨?_, h.engine⟩, hcall⟩
  show (t.cancelled || _) = false
  rw [h.live, hcall.cancels]
  rfl

end Moved

/-! ## Stages and runs -/

section Runs

variable (hengine : g.engine.Calm R) (hsink : g.sink.Calm)
variable (hrefl : ∀ a, R a a) (htrans : ∀ a b c, R a b → R b c → R a c)
include hengine hsink hrefl htrans

end Runs

end Generator

end LibraryModels
