import GoShape.Proofs.Runs
import Mathlib.Computability.StateTransition

/-! A run as a process that takes one step for each of its calls. Whatever it puts out comes when only
success is left, so whatever fails leaves the files as they were and nothing on the standard output. -/
namespace GoShape.Command

variable {σ : Type} [FileSystem σ]

/-! ### What is shown -/

/-- A system if it shows some of the reports only. -/
def World.showing (w : World σ) (shows : Report → Bool) : World σ :=
  { w with shows := shows, stderr := w.stderr.filter shows }

theorem Call.shows_answer (c : Call) (w : World σ) : (c.answer w).2.shows = w.shows := by
  cases c with
  | writeFile path bytes =>
    simp only [answer]
    split <;> rfl
  | _ => rfl

theorem Call.answer_showing (c : Call) {w : World σ} (hall : w.shows = fun _ => true)
    (shows : Report → Bool) :
    c.answer (w.showing shows) = ((c.answer w).1, (c.answer w).2.showing shows) := by
  cases c with
  | writeFile path bytes =>
    simp only [answer, World.showing]
    split <;> rfl
  | report r => simp [answer, World.showing, World.report, hall]
  | _ => rfl

/-- What is shown makes no other difference. -/
theorem Program.run_showing {α : Type} (p : Program α) {w : World σ} (hall : w.shows = fun _ => true)
    (shows : Report → Bool) :
    p.run (w.showing shows) = ((p.run w).1, (p.run w).2.showing shows) := by
  induction p generalizing w with
  | done a => rfl
  | call c next ih =>
    simp only [run, c.answer_showing hall shows]
    exact ih _ ((c.shows_answer w).trans hall)

/-! ### What is put out -/

namespace Program

variable {α : Type}

/-- A program that puts nothing out, whatever it is answered. -/
inductive Quiet : Program α → Prop
  | done (a : α) : Quiet (.done a)
  | readFile {path next} (h : ∀ answer, Quiet (next answer)) : Quiet (.call (.readFile path) next)
  | readInput {next} (h : ∀ answer, Quiet (next answer)) : Quiet (.call .readInput next)
  | report {r next} (h : Quiet (next ())) : Quiet (.call (.report r) next)

/-- A program to which only reports and success are left. -/
inductive Succeeds : Program UInt32 → Prop
  | done : Succeeds (.done 0)
  | report {r next} (h : Succeeds (next ())) : Succeeds (.call (.report r) next)

/-- A program that puts something out only if success is all that comes then. -/
inductive PutsOutLast : Program UInt32 → Prop
  | done (code : UInt32) : PutsOutLast (.done code)
  | readFile {path next} (h : ∀ answer, PutsOutLast (next answer)) :
    PutsOutLast (.call (.readFile path) next)
  | readInput {next} (h : ∀ answer, PutsOutLast (next answer)) : PutsOutLast (.call .readInput next)
  | report {r next} (h : PutsOutLast (next ())) : PutsOutLast (.call (.report r) next)
  | print {text next} (h : Succeeds (next ())) : PutsOutLast (.call (.print text) next)
  | writeFile {path bytes next} (hok : Succeeds (next (.ok ())))
    (herror : ∀ e, PutsOutLast (next (.error e))) : PutsOutLast (.call (.writeFile path bytes) next)

theorem Quiet.bind {p : Program α} {f : α → Program UInt32} (hp : Quiet p)
    (hf : ∀ a, PutsOutLast (f a)) : PutsOutLast (p >>= f) := by
  induction hp with
  | done a => exact hf a
  | readFile _ ih => exact .readFile ih
  | readInput _ ih => exact .readInput ih
  | report _ ih => exact .report ih

theorem quiet_reports (entries : List Entry) :
    Quiet (entries.forM fun e => report (.entry e)) := by
  induction entries with
  | nil => exact .done ()
  | cons e entries ih => exact .report ih

theorem Succeeds.run {p : Program UInt32} (h : Succeeds p) (w : World σ) : (p.run w).1 = 0 := by
  induction h generalizing w with
  | done => rfl
  | report _ ih => exact ih _

end Program

open Program

theorem putsOutLast_fail (f : Failure) : PutsOutLast (fail f) := .report (.done 1)

namespace Invocation

theorem quiet_fetch (s : Invocation) : Quiet s.fetch := by
  unfold fetch
  cases s.input with
  | none => exact .readInput fun _ => .done _
  | some path => exact .readFile fun _ => .done _

theorem putsOutLast_store (s : Invocation) (text : String) : PutsOutLast (s.store text) := by
  unfold store
  cases s.output with
  | none => exact .print .done
  | some path => exact .writeFile (.report .done) fun e => putsOutLast_fail (writeFailure path e)

theorem putsOutLast_execute (s : Invocation) : PutsOutLast s.execute := by
  refine s.quiet_fetch.bind fun fetched => ?_
  cases fetched with
  | error e => exact putsOutLast_fail _
  | ok sample =>
    simp only
    generalize s.respond sample = response
    obtain ⟨entries, result⟩ := response
    refine (quiet_reports entries).bind fun _ => ?_
    cases result with
    | error f => exact putsOutLast_fail f
    | ok text => exact s.putsOutLast_store text

end Invocation

theorem putsOutLast_program (args : List String) : PutsOutLast (program args) := by
  unfold program
  cases Request.ofArguments args with
  | run s => exact s.putsOutLast_execute
  | version => exact .print .done
  | help => exact .print .done
  | refuse e => exact .report (.done 2)

/-! ### Steps -/

/-- A process is what is left of its program, on a system. -/
structure Process (σ : Type) where
  rest : Program UInt32
  world : World σ

namespace Process

open StateTransition

/-- A process with its arguments, and with the variable that says which entries are wanted. -/
def start (wanted : Option String) (args : List String) (files : σ)
    (input : Except FileError ByteArray) : Process σ :=
  ⟨program args, .start files input (Filter.ofVariable wanted).shows⟩

/-- One call with its answer; a process that is done takes no step. -/
def step (p : Process σ) : Option (Process σ) :=
  match p.rest with
  | .done _ => none
  | .call c next => some ⟨next (c.answer p.world).1, (c.answer p.world).2⟩

variable {p q : Process σ}

/-- The steps of a process make up the run of its program. -/
theorem run_mem_eval (p : Process σ) :
    ⟨.done (p.rest.run p.world).1, (p.rest.run p.world).2⟩ ∈ eval step p := by
  obtain ⟨rest, w⟩ := p
  induction rest generalizing w with
  | done code => exact mem_eval.mpr ⟨.refl, rfl⟩
  | call c next ih =>
    have hstep : step ⟨.call c next, w⟩ = some ⟨next (c.answer w).1, (c.answer w).2⟩ := rfl
    rw [reaches_eval (.single hstep)]
    exact ih _ _

theorem succeeds_step (h : p.step = some q) (hp : Succeeds p.rest) : Succeeds q.rest := by
  obtain ⟨rest, w⟩ := p
  cases hp with
  | done => cases h
  | report hnext =>
    cases h
    exact hnext

/-- A step puts nothing out, or only success is left after it. -/
theorem step_puts_nothing_out (h : p.step = some q) (hp : PutsOutLast p.rest) :
    (PutsOutLast q.rest ∧ q.world.stdout = p.world.stdout ∧ q.world.files = p.world.files) ∨
      Succeeds q.rest := by
  obtain ⟨rest, w⟩ := p
  cases hp with
  | done code => cases h
  | readFile hnext =>
    cases h
    exact .inl ⟨hnext _, rfl, rfl⟩
  | readInput hnext =>
    cases h
    exact .inl ⟨hnext _, rfl, rfl⟩
  | report hnext =>
    cases h
    exact .inl ⟨hnext, rfl, rfl⟩
  | print hnext =>
    cases h
    exact .inr hnext
  | @writeFile path bytes next hok herror =>
    cases hwrite : FileSystem.write w.files path bytes with
    | ok files =>
      simp only [step, Call.answer, hwrite] at h
      cases h
      exact .inr hok
    | error e =>
      simp only [step, Call.answer, hwrite] at h
      cases h
      exact .inl ⟨herror e, rfl, rfl⟩

/-- At any time a process has put nothing out, or only success is left. -/
theorem puts_nothing_out (h : Reaches step p q) (hp : PutsOutLast p.rest) :
    (PutsOutLast q.rest ∧ q.world.stdout = p.world.stdout ∧ q.world.files = p.world.files) ∨
      Succeeds q.rest := by
  induction h with
  | refl => exact .inl ⟨hp, rfl, rfl⟩
  | tail _ hstep ih =>
    rcases ih with ⟨hq, hstdout, hfiles⟩ | hq
    · exact (step_puts_nothing_out hstep hq).imp_left fun ⟨hr, hstdout', hfiles'⟩ =>
        ⟨hr, hstdout'.trans hstdout, hfiles'.trans hfiles⟩
    · exact .inr (succeeds_step hstep hq)

end Process

/-! ### What fails -/

section

variable (args : List String) (files : σ) (input : Except FileError ByteArray)

/-- The ways in which a run fails, with the code it leaves. -/
inductive Fails : UInt32 → Prop
  | usage {e : UsageError} (hargs : Request.ofArguments args = .refuse e) : Fails 2
  | sample {s : Invocation} {e : FileError} (hargs : Request.ofArguments args = .run s)
      (hsample : s.sample files input = .error e) : Fails 1
  | conversion {s : Invocation} {text : String} {e : ConvertError}
      (hargs : Request.ofArguments args = .run s) (hsample : s.sample files input = .ok text)
      (hjson : s.json = false) (hdeclare : declare text s.options = .error e) : Fails 1
  | output {s : Invocation} {text out path : String} {e : FileError}
      (hargs : Request.ofArguments args = .run s) (hsample : s.sample files input = .ok text)
      (hrender : s.render (declare text s.options) = .ok out) (hout : s.output = some path)
      (hwrite : FileSystem.write files path (out ++ "\n").toUTF8 = .error e) : Fails 1

end

theorem Invocation.render_eq_error_iff {s : Invocation} {result : Except ConvertError String} :
    (∃ f, s.render result = .error f) ↔ s.json = false ∧ ∃ e, result = .error e := by
  cases hjson : s.json <;> cases result <;> simp [render, hjson, Except.mapError]

theorem fails_iff {args : List String} {files : σ} {input : Except FileError ByteArray}
    {code : UInt32} :
    Fails args files input code ↔ (outcome args files input).exitCode = code ∧ code ≠ 0 := by
  constructor
  · intro h
    cases h with
    | usage hargs =>
      rw [outcome, program, hargs]
      exact ⟨rfl, by decide⟩
    | sample hargs hsample =>
      rw [outcome_of_sample_error hargs hsample]
      exact ⟨rfl, by decide⟩
    | conversion hargs hsample hjson hdeclare =>
      obtain ⟨f, hrender⟩ := Invocation.render_eq_error_iff.mpr ⟨hjson, _, hdeclare⟩
      rw [outcome_of_render_error hargs hsample hrender]
      exact ⟨rfl, by decide⟩
    | output hargs hsample hrender hout hwrite =>
      rw [outcome_unwritten hargs hsample hrender hout hwrite]
      exact ⟨rfl, by decide⟩
  · rintro ⟨rfl, hcode⟩
    cases hargs : Request.ofArguments args with
    | version =>
      rw [outcome, program, hargs] at hcode
      exact absurd rfl hcode
    | help =>
      rw [outcome, program, hargs] at hcode
      exact absurd rfl hcode
    | refuse e =>
      rw [outcome, program, hargs]
      exact .usage hargs
    | run s =>
      cases hsample : s.sample files input with
      | error e =>
        rw [outcome_of_sample_error hargs hsample]
        exact .sample hargs hsample
      | ok text =>
        cases hrender : s.render (declare text s.options) with
        | error f =>
          obtain ⟨hjson, e, hdeclare⟩ := Invocation.render_eq_error_iff.mp ⟨f, hrender⟩
          rw [outcome_of_render_error hargs hsample hrender]
          exact .conversion hargs hsample hjson hdeclare
        | ok out =>
          cases hout : s.output with
          | none =>
            rw [outcome_printed hargs hsample hrender hout] at hcode
            exact absurd rfl hcode
          | some path =>
            cases hwrite : FileSystem.write files path (out ++ "\n").toUTF8 with
            | ok files' =>
              rw [outcome_written hargs hsample hrender hout hwrite] at hcode
              exact absurd rfl hcode
            | error e =>
              rw [outcome_unwritten hargs hsample hrender hout hwrite]
              exact .output hargs hsample hrender hout hwrite

open StateTransition in
/-- A process ends as the run of its arguments says, whatever is logged. If its code is not zero, which
is so in the cases of `Fails` only, then nothing was put out: neither in the end nor at any time before
was there a text on the standard output or a file that is not as it was. The files may be those of any
system, and reading and writing them may be refused. -/
theorem failed_run_puts_nothing_out (wanted : Option String) (args : List String) (files : σ)
    (input : Except FileError ByteArray) :
    let start := Process.start wanted args files input
    let outcome := outcome args files input
    (∃ last ∈ eval Process.step start, last.rest = .done outcome.exitCode ∧
      last.world.stdout = outcome.stdout ∧ last.world.files = outcome.files ∧
      ∀ time, outcome.stderr (.ofVariable wanted) time =
        String.join (last.world.stderr.map (Report.text time))) ∧
    (∀ code, Fails args files input code ↔ outcome.exitCode = code ∧ code ≠ 0) ∧
    (outcome.exitCode ≠ 0 → outcome.stdout = "" ∧ outcome.files = files ∧
      ∀ p, Reaches Process.step start p → p.world.stdout = "" ∧ p.world.files = files) := by
  intro start outcome
  let everything : World σ := .start files input fun _ => true
  have hshown : start.rest.run start.world = (outcome.exitCode,
      ((program args).run everything).2.showing (Filter.ofVariable wanted).shows) :=
    (program args).run_showing (w := everything) rfl _
  have hlast := Process.run_mem_eval start
  refine ⟨⟨_, hlast, ?_⟩, fun code => fails_iff, fun hfails => ?_⟩
  · rw [hshown]
    exact ⟨rfl, rfl, rfl, fun _ => rfl⟩
  · have hany (p : Process σ) (h : Reaches Process.step start p) :
        p.world.stdout = "" ∧ p.world.files = files := by
      rcases Process.puts_nothing_out h (putsOutLast_program args) with ⟨-, hp⟩ | hp
      · exact hp
      · -- what succeeds after some steps succeeds from the start
        have hend := Process.run_mem_eval p
        rw [← reaches_eval h] at hend
        have hcode := congrArg Process.rest (Part.mem_unique hlast hend)
        rw [hshown, hp.run] at hcode
        exact absurd (Program.done.inj hcode) hfails
    obtain ⟨hempty, hsame⟩ := hany _ (mem_eval.mp hlast).1
    rw [hshown] at hempty hsame
    exact ⟨hempty, hsame, hany⟩

/-- A file that may be read and not written stays as it is, although the output was to go there. -/
theorem failed_run_puts_nothing_out_sample :
    let disk : Disk := ⟨[(["f"], .file ⟨true, false, false⟩ "[1]".toUTF8)], ["work"]⟩
    (outcome ["-i", "/f", "-o", "../f"] disk (.ok .empty)).exitCode = 1 ∧
      (outcome ["-i", "/f", "-o", "../f"] disk (.ok .empty)).stdout = "" ∧
      (outcome ["-i", "/f", "-o", "../f"] disk (.ok .empty)).files = disk := by
  intro disk
  let s : Invocation := { Invocation.empty with input := some "/f", output := some "../f" }
  have hargs : Request.ofArguments ["-i", "/f", "-o", "../f"] = .run s := rfl
  have hsample : s.sample disk (.ok .empty) = .ok "[1]" := rfl
  obtain ⟨out, hrender⟩ : ∃ out, s.render (declare "[1]" s.options) = .ok out := ⟨_, rfl⟩
  have hwrite : FileSystem.write disk "../f" (out ++ "\n").toUTF8 = .error .denied := rfl
  obtain ⟨-, hfails, hnothing⟩ :=
    failed_run_puts_nothing_out (some "off") ["-i", "/f", "-o", "../f"] disk (.ok .empty)
  obtain ⟨hcode, hne⟩ := (hfails 1).mp (.output hargs hsample hrender rfl hwrite)
  obtain ⟨hstdout, hfiles, -⟩ := hnothing (hcode ▸ hne)
  exact ⟨hcode, hstdout, hfiles⟩

end GoShape.Command
