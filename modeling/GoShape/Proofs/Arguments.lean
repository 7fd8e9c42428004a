import GoShape.Command.Usage

/-! Arguments that ask for a run. What a run is asked to do is put together from left to right, and
nothing that is set is taken back; so another argument can stand in front of the ones that ask for a
run, if they do not say the same. -/
namespace GoShape.Command

/-- Arguments that add to what a run is asked to do, with nothing refused on the way. -/
inductive Reads : Invocation → List String → Invocation → Prop
  | none {s} : Reads s [] s
  | endOfOptions {s a} (ha : Argument.ofText a = .endOfOptions) : Reads s [a] s
  | json {s a rest t} (ha : Argument.ofText a = .json) (hs : s.json = false)
    (h : Reads { s with json := true } rest t) : Reads s (a :: rest) t
  | joined {s s' a o value rest t} (ha : Argument.ofText a = .option o (some value))
    (hs : s.set o value = .ok s') (h : Reads s' rest t) : Reads s (a :: rest) t
  | apart {s s' a o value rest t} (ha : Argument.ofText a = .option o .none) (hvalue : isValue value)
    (hs : s.set o value = .ok s') (h : Reads s' rest t) : Reads s (a :: value :: rest) t

theorem Reads.read {s t : Invocation} {args : List String} (h : Reads s args t) :
    Request.read s args = .run t := by
  induction h with
  | none => rfl
  | endOfOptions ha => simp [Request.read, ha]
  | json ha hs h ih =>
    rw [Request.read.eq_def]
    simp [ha, hs, ih]
  | joined ha hs h ih =>
    rw [Request.read.eq_def]
    simp [ha, hs, ih]
  | apart ha hvalue hs h ih => simp [Request.read, ha, hvalue, hs, ih]

theorem Reads.of_read {s t : Invocation} {args : List String} (h : Request.read s args = .run t) :
    Reads s args t := by
  fun_induction Request.read s args with
  | case1 => cases h; exact .none
  | case6 s a rest ha hs ih => exact .json ha (by simpa using hs) (ih h)
  | case7 s a ha => cases h; exact .endOfOptions ha
  | case9 s a rest o value ha s' hs ih => exact .joined ha hs (ih h)
  | case12 s a o ha value rest hvalue s' hs ih => exact .apart ha hvalue hs (ih h)
  | _ => cases h

/-- The arguments are read if and only if there is a run that they add up to. -/
theorem reads_iff {s t : Invocation} {args : List String} :
    Request.read s args = .run t ↔ Reads s args t :=
  ⟨Reads.of_read, Reads.read⟩

/-- What is set beforehand is set in the end, if the arguments leave it alone: `Free` says that it is
not set yet, and `f` sets it. -/
theorem Reads.beforehand {f : Invocation → Invocation} {Free : Invocation → Prop}
    (hset : ∀ {a b o value}, a.set o value = .ok b → Free b →
      Free a ∧ (f a).set o value = .ok (f b))
    (hjson : ∀ {a}, a.json = false → Free { a with json := true } →
      Free a ∧ (f a).json = false ∧ { f a with json := true } = f { a with json := true })
    {s t : Invocation} {args : List String} (h : Reads s args t) (ht : Free t) :
    Free s ∧ Reads (f s) args (f t) := by
  induction h with
  | none => exact ⟨ht, .none⟩
  | endOfOptions ha => exact ⟨ht, .endOfOptions ha⟩
  | json ha hs h ih =>
    obtain ⟨hfree, hrest⟩ := ih ht
    obtain ⟨hbefore, hflag, heq⟩ := hjson hs hfree
    exact ⟨hbefore, .json ha hflag (heq ▸ hrest)⟩
  | joined ha hs h ih =>
    obtain ⟨hfree, hrest⟩ := ih ht
    obtain ⟨hbefore, hlater⟩ := hset hs hfree
    exact ⟨hbefore, .joined ha hlater hrest⟩
  | apart ha hvalue hs h ih =>
    obtain ⟨hfree, hrest⟩ := ih ht
    obtain ⟨hbefore, hlater⟩ := hset hs hfree
    exact ⟨hbefore, .apart ha hvalue hlater hrest⟩

/-- An option that takes its value was not given before. -/
theorem Invocation.cases_of_set {a b : Invocation} {o : Parameter} {value : String}
    (h : a.set o value = .ok b) :
    (o = .input ∧ a.input = none ∧ b = { a with input := some value }) ∨
    (o = .output ∧ a.output = none ∧ b = { a with output := some value }) ∨
    (o = .name ∧ a.typeName = none ∧ b = { a with typeName := some value }) ∨
    (o = .maxBytes ∧ a.maxBytes = none ∧ ∃ n, size? value = some n ∧ b = { a with maxBytes := some n }) := by
  unfold set at h
  split at h
  · cases h
  · rename_i hfree
    cases o with
    | input => exact .inl ⟨rfl, by simpa [has] using hfree, (Except.ok.inj h).symm⟩
    | output => exact .inr (.inl ⟨rfl, by simpa [has] using hfree, (Except.ok.inj h).symm⟩)
    | name => exact .inr (.inr (.inl ⟨rfl, by simpa [has] using hfree, (Except.ok.inj h).symm⟩))
    | maxBytes =>
      simp only at h
      split at h
      · rename_i n hn
        exact .inr (.inr (.inr ⟨rfl, by simpa [has] using hfree, n, hn, (Except.ok.inj h).symm⟩))
      · cases h

theorem Invocation.set_json {a b : Invocation} {o : Parameter} {value : String}
    (h : a.set o value = .ok b) (hb : b.json = false) :
    a.json = false ∧ { a with json := true }.set o value = .ok { b with json := true } := by
  rcases cases_of_set h with ⟨rfl, ha, rfl⟩ | ⟨rfl, ha, rfl⟩ | ⟨rfl, ha, rfl⟩ | ⟨rfl, ha, n, hn, rfl⟩
  · exact ⟨hb, by simp [set, has, ha]⟩
  · exact ⟨hb, by simp [set, has, ha]⟩
  · exact ⟨hb, by simp [set, has, ha]⟩
  · exact ⟨hb, by simp [set, has, ha, hn]⟩

theorem Invocation.set_output {a b : Invocation} {o : Parameter} {value : String}
    (h : a.set o value = .ok b) (hb : b.output = none) (path : String) :
    a.output = none ∧ { a with output := some path }.set o value = .ok { b with output := some path } := by
  rcases cases_of_set h with ⟨rfl, ha, rfl⟩ | ⟨rfl, ha, rfl⟩ | ⟨rfl, ha, rfl⟩ | ⟨rfl, ha, n, hn, rfl⟩
  · exact ⟨hb, by simp [set, has, ha]⟩
  · cases hb
  · exact ⟨hb, by simp [set, has, ha]⟩
  · exact ⟨hb, by simp [set, has, ha, hn]⟩

/-- The flag can be given in front of arguments that do not give it. -/
theorem Request.ofArguments_json {args : List String} {s : Invocation}
    (h : ofArguments args = .run s) (hs : s.json = false) :
    ofArguments ("--json" :: args) = .run { s with json := true } := by
  have hrest := (reads_iff.mp h).beforehand (f := fun s => { s with json := true })
    Invocation.set_json (fun _ hflag => by cases hflag) hs
  exact reads_iff.mpr (.json rfl rfl hrest.2)

/-- The output can be given in front of arguments that do not give it. -/
theorem Request.ofArguments_output {args : List String} {s : Invocation} {path : String}
    (h : ofArguments args = .run s) (hs : s.output = none) (hpath : isValue path) :
    ofArguments ("-o" :: path :: args) = .run { s with output := some path } := by
  have hrest := (reads_iff.mp h).beforehand (f := fun s => { s with output := some path })
    (fun hset hfree => Invocation.set_output hset hfree path) (fun hflag hfree => ⟨hfree, hflag, rfl⟩) hs
  exact reads_iff.mpr (.apart rfl hpath rfl hrest.2)

end GoShape.Command
