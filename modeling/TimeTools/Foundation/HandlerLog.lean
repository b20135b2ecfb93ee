import Mathlib.Logic.Function.Basic
import TimeTools.Foundation.Signal
import TimeTools.Foundation.TextLog

/-!
# A log written by signal handlers

Processes that share one log: the handler of each appends a record at its end, and the
process itself appends headers when its handler is not running.  Whatever the order of
expiries, deliveries and appends, the log reads back as a merge of what each process has put
out (`Writers.readText_run`).
-/

namespace HandlerLog

open TextLog

variable {κ γ ι ρ : Type} [DecidableEq κ]

/-- `records` holds every row, each in its order. -/
def IsMerge (records : List ρ) (rows : κ → List ρ) : Prop :=
  ∃ tagged : List (κ × ρ), tagged.map Prod.snd = records ∧
    ∀ k, (tagged.filter (·.1 = k)).map Prod.snd = rows k

structure World (κ γ ρ : Type) where
  process : κ → Signal.State γ ρ
  file : List Char

inductive Event (κ ι : Type)
  | signal (k : κ) (e : Signal.Event ι)
  | header (k : κ) (ls : List (List Char))

/-- The processes: one handler, the globals each starts from, and the headers of each. -/
structure Writers (κ γ ι ρ : Type) where
  handler : Signal.Handler γ ι ρ
  format : Format ρ
  globals : κ → γ
  IsHeader : κ → List (List Char) → Prop
  headerLine : ∀ k ls, IsHeader k ls → ∀ l ∈ ls, HeaderLine l

def Event.signal? (k : κ) : Event κ ι → Option (Signal.Event ι)
  | .signal k' e => if k' = k then some e else none
  | .header _ _ => none

namespace Writers

variable (W : Writers κ γ ι ρ)

def Enabled (w : World κ γ ρ) : Event κ ι → Prop
  | .signal k e => (w.process k).Enabled e
  | .header k ls => W.IsHeader k ls ∧ (w.process k).handling = none

def step (w : World κ γ ρ) : Event κ ι → World κ γ ρ
  | .signal k e =>
    { process := Function.update w.process k ((w.process k).step W.handler e)
      file := w.file ++ W.format.text (((w.process k).puts e).map .record) }
  | .header _ ls => { w with file := w.file ++ W.format.text [.header ls] }

def machine : Machine (World κ γ ρ) (Event κ ι) where
  init := { process := fun k => .start (W.globals k), file := [] }
  enabled := W.Enabled
  step := W.step

/-- The log is what the processes have put out, and headers. -/
def Holds (w : World κ γ ρ) : Prop :=
  ∃ tagged : List (κ × ρ), W.format.IsLog (tagged.map Prod.snd) w.file ∧
    ∀ k, (tagged.filter (·.1 = k)).map Prod.snd = (w.process k).output

theorem holds_step {w : World κ γ ρ} {e : Event κ ι} (h : W.Holds w) (he : W.Enabled w e) :
    W.Holds (W.step w e) := by
  obtain ⟨tagged, hlog, hrows⟩ := h
  cases e with
  | signal k e =>
    refine ⟨tagged ++ ((w.process k).puts e).map (k, ·), ?_, fun k' => ?_⟩
    · rw [List.map_append, List.map_map]
      have hputs : ((w.process k).puts e).map (Prod.snd ∘ (k, ·)) = (w.process k).puts e :=
        List.map_id _
      rw [hputs]
      exact hlog.records _
    · rw [List.filter_append, List.map_append, hrows]
      show _ = (Function.update w.process k _ k').output
      by_cases hk : k = k'
      · subst hk
        rw [Function.update_self, Signal.State.output_step]
        simp [List.filter_map, Function.comp_def]
      · rw [Function.update_of_ne (Ne.symm hk)]
        simp [List.filter_map, Function.comp_def, hk]
  | header k ls => exact ⟨tagged, hlog.header (W.headerLine k ls he.1), hrows⟩

theorem isMerge_readText {w : World κ γ ρ} (h : W.Holds w) :
    IsMerge (W.format.readText w.file) fun k => (w.process k).output := by
  obtain ⟨tagged, hlog, hrows⟩ := h
  exact ⟨tagged, hlog.readText.symm, hrows⟩

/-! ## Each process by itself -/

theorem process_step (w : World κ γ ρ) (e : Event κ ι) (k : κ) :
    (W.step w e).process k = (e.signal? k).elim (w.process k) ((w.process k).step W.handler) := by
  cases e with
  | signal k' e =>
    show Function.update w.process k' _ k = _
    by_cases hk : k' = k
    · subst hk
      simp [Event.signal?]
    · rw [Function.update_of_ne (Ne.symm hk), Event.signal?, if_neg hk]
      rfl
  | header k' ls => rfl

/-- A process sees a run of its own events. -/
theorem process_run (k : κ) {w : World κ γ ρ} {es : List (Event κ ι)}
    (hadm : W.machine.Admits w es) :
    (Signal.machine W.handler (W.globals k)).Admits (w.process k)
        (es.filterMap (Event.signal? k)) ∧
      (W.machine.run w es).process k =
        (Signal.machine W.handler (W.globals k)).run (w.process k)
          (es.filterMap (Event.signal? k)) := by
  induction es generalizing w with
  | nil => exact ⟨trivial, rfl⟩
  | cons e es ih =>
    obtain ⟨henabled, hadm⟩ := hadm
    obtain ⟨hrest, hrun⟩ := ih hadm
    have hstep : (W.machine.step w e).process k = _ := W.process_step w e k
    rw [hstep] at hrest hrun
    rw [Machine.run_cons, hrun, List.filterMap_cons]
    cases hsignal : e.signal? k with
    | none =>
      rw [hsignal] at hrest
      exact ⟨hrest, rfl⟩
    | some e' =>
      rw [hsignal] at hrest
      refine ⟨⟨?_, hrest⟩, rfl⟩
      cases e with
      | signal k' e =>
        rw [Event.signal?] at hsignal
        split at hsignal
        · rename_i hk
          subst hk
          obtain rfl := Option.some.inj hsignal
          exact henabled
        · exact absurd hsignal (by simp)
      | header k' ls => exact absurd hsignal (by simp [Event.signal?])

/-- What process `k` has been delivered. -/
def inputs (k : κ) (es : List (Event κ ι)) : List ι :=
  (es.filterMap (Event.signal? k)).filterMap Signal.Event.input?

/-- The log reads back, every expiry of every process is accounted for, and every process
has done what a loop would do. -/
theorem readText_run {es : List (Event κ ι)} (hadm : W.machine.Admits W.machine.init es) :
    IsMerge (W.format.readText (W.machine.run W.machine.init es).file)
        (fun k => ((W.machine.run W.machine.init es).process k).output) ∧
      ∀ k, ((W.machine.run W.machine.init es).process k).Accounted ∧
        ((W.machine.run W.machine.init es).process k).Follows W.handler (W.globals k)
          (inputs k es) := by
  constructor
  · have hinit : W.Holds W.machine.init := ⟨[], W.format.isLog_nil, fun _ => rfl⟩
    exact W.isMerge_readText <| Machine.run_of_invariant (m := W.machine) (C := fun _ _ => True)
      (fun _ _ h he _ => W.holds_step h he) hinit hadm (Machine.along_true _ _ _)
  · intro k
    obtain ⟨hproc, hrun⟩ := W.process_run k hadm
    rw [hrun]
    exact ⟨Signal.accounted_run hproc,
      Signal.follows_run (Signal.State.Follows.start (W.globals k)) hproc⟩

end Writers

end HandlerLog
