import GoShape.Proofs.Words

/-! Names place by place. Whether a small letter becomes a capital is told from the run of small
letters around its place and from the character in front of that run, both as they stand in the key: it
does not matter what the first pass leaves to the second. -/
namespace GoShape.Identifier

/-- No run of small letters begins in this text and goes on behind it. -/
def StartsRun (cs : List Char) : Prop := ∀ c ∈ cs.getLast?, isSmall c = false

theorem startsRun_iff_endsRun_reverse {cs : List Char} : StartsRun cs ↔ EndsRun cs.reverse := by
  rw [StartsRun, EndsRun, List.head?_reverse]

theorem startsRun_append_singleton {cs : List Char} {c : Char} (hc : isSmall c = false) :
    StartsRun (cs ++ [c]) := by
  simpa [StartsRun] using hc

/-- The small letters directly in front of a place of a text, and those from the place on. Together
they are a run that goes on neither to the left nor to the right. -/
@[ext]
structure Run (text : List Char) (i : Nat) where
  front : List Char
  before : List Char
  after : List Char
  behind : List Char
  left : front ++ before = text.take i
  right : after ++ behind = text.drop i
  small : ∀ c ∈ before ++ after, isSmall c
  starts : StartsRun front
  ends : EndsRun behind

namespace Run

variable {text : List Char} {i : Nat}

def letters (r : Run text i) : List Char := r.before ++ r.after

/-- The letter at the place becomes a capital: no letter stands in front of its run, and it is the
first of the run or the run is an initialism; or a capital stands there, and they are an initialism
together. -/
def raises (r : Run text i) : Bool :=
  (!r.front.getLast?.any isLetter && (r.before.isEmpty || isInitialism r.letters)) ||
    r.front.getLast?.any fun u => isCapital u && isInitialism (u :: r.letters)

/-- There is no other run around the place. -/
theorem eq (r s : Run text i) : r = s := by
  have hright (r : Run text i) : smallRun (text.drop i) = r.after ∧
      (text.drop i).dropWhile isSmall = r.behind := by
    rw [← r.right]
    exact smallRun_of_endsRun (fun c hc => r.small c (by simp [hc])) r.ends
  have hleft (r : Run text i) : smallRun (text.take i).reverse = r.before.reverse ∧
      (text.take i).reverse.dropWhile isSmall = r.front.reverse := by
    rw [← r.left, List.reverse_append]
    refine smallRun_of_endsRun (fun c hc => r.small c ?_) (startsRun_iff_endsRun_reverse.mp r.starts)
    simp [List.mem_reverse.mp hc]
  have hfront : r.front = s.front := List.reverse_inj.mp ((hleft r).2.symm.trans (hleft s).2)
  have hbefore : r.before = s.before := List.reverse_inj.mp ((hleft r).1.symm.trans (hleft s).1)
  have hafter : r.after = s.after := (hright r).1.symm.trans (hright s).1
  have hbehind : r.behind = s.behind := (hright r).2.symm.trans (hright s).2
  exact Run.ext hfront hbefore hafter hbehind

end Run

/-- The run around a place of a text. -/
def runAt (text : List Char) (i : Nat) : Run text i where
  front := ((text.take i).reverse.dropWhile isSmall).reverse
  before := (smallRun (text.take i).reverse).reverse
  after := smallRun (text.drop i)
  behind := (text.drop i).dropWhile isSmall
  left := by rw [← List.reverse_append, smallRun_append, List.reverse_reverse]
  right := smallRun_append _
  small := by
    intro c hc
    rcases List.mem_append.mp hc with hc | hc
    · exact forall_smallRun _ c (List.mem_reverse.mp hc)
    · exact forall_smallRun _ c hc
  starts := by
    rw [startsRun_iff_endsRun_reverse, List.reverse_reverse]
    exact endsRun_dropWhile _
  ends := endsRun_dropWhile _

example : (runAt "my_url2".toList 4).letters = ['u', 'r', 'l'] := by decide

/-- What a character of a text becomes at its place. -/
def atPlace (text : List Char) (x : Char × Nat) : Char :=
  if isSmall x.1 && (runAt text x.2).raises then capital x.1 else x.1

theorem isAlphanumeric_atPlace (text : List Char) (x : Char × Nat) :
    isAlphanumeric (atPlace text x) = isAlphanumeric x.1 := by
  unfold atPlace
  split
  · exact isAlphanumeric_capital x.1
  · rfl

/-- The rule at the places of a run. -/
theorem raises_runAt {front run behind : List Char} (hrun : ∀ c ∈ run, isSmall c)
    (hfront : StartsRun front) (hbehind : EndsRun behind) {k : Nat} (hk : k < run.length) :
    (runAt (front ++ (run ++ behind)) (front.length + k)).raises =
      ((!front.getLast?.any isLetter && (k == 0 || isInitialism run)) ||
        front.getLast?.any fun u => isCapital u && isInitialism (u :: run)) := by
  let r : Run (front ++ (run ++ behind)) (front.length + k) :=
    { front, before := run.take k, after := run.drop k, behind
      left := by rw [List.take_length_add_append, List.take_append_of_le_length hk.le]
      right := by rw [List.drop_length_add_append, List.drop_append_of_le_length hk.le]
      small := by rwa [List.take_append_drop]
      starts := hfront
      ends := hbehind }
  have hfirst : (run.take k).isEmpty = (k == 0) := by
    cases run with
    | nil => cases hk
    | cons c run => cases k <;> rfl
  rw [Run.eq (runAt _ _) r, Run.raises, Run.letters, List.take_append_drop, hfirst]

/-! ### The rule at all places -/

/-- A part of a text, written place by place, between the parts in front of it and behind it. -/
def casedPart (front part behind : List Char) : List Char :=
  part.mapIdx fun k c => atPlace (front ++ (part ++ behind)) (c, front.length + k)

theorem casedPart_append (front xs ys behind : List Char) :
    casedPart front (xs ++ ys) behind =
      casedPart front xs (ys ++ behind) ++ casedPart (front ++ xs) ys behind := by
  simp only [casedPart, List.mapIdx_append, List.append_assoc, List.length_append, Nat.add_assoc,
    Nat.add_comm xs.length]

theorem casedPart_singleton {c : Char} (hc : isSmall c = false) (front behind : List Char) :
    casedPart front [c] behind = [c] := by
  simp [casedPart, atPlace, hc]

theorem length_caseWord (c : Char) (run : List Char) : (caseWord c run).length = run.length + 1 := by
  unfold caseWord
  split <;> simp

/-- A run behind no letter is a word. -/
theorem casedPart_word {c : Char} {run : List Char} (hrun : ∀ d ∈ c :: run, isSmall d)
    {front behind : List Char} (hfront : front.getLast?.any isLetter = false)
    (hbehind : EndsRun behind) :
    casedPart front (c :: run) behind = caseWord c run := by
  have hstarts : StartsRun front := by
    intro d hd
    rw [Option.mem_def.mp hd] at hfront
    exact (isLetter_eq_false_iff.mp hfront).1
  have hcapital : (front.getLast?.any fun u => isCapital u && isInitialism (u :: c :: run)) = false := by
    cases hlast : front.getLast? with
    | none => rfl
    | some u =>
      rw [hlast] at hfront
      simp [(isLetter_eq_false_iff.mp hfront).2]
  apply List.ext_getElem (by rw [length_caseWord]; simp [casedPart])
  intro k hk hk'
  have hlt : k < (c :: run).length := by simpa [casedPart] using hk
  simp only [casedPart, List.getElem_mapIdx, atPlace, raises_runAt hrun hstarts hbehind hlt, hfront,
    hcapital, hrun _ (List.getElem_mem hlt), caseWord]
  by_cases hinit : isInitialism (c :: run)
  · cases k <;> simp [hinit]
  · cases k <;> simp [hinit]

/-- A run behind a capital belongs to the word of the capital. -/
theorem casedPart_run {u : Char} (hu : isCapital u) {run : List Char} (hrun : ∀ d ∈ run, isSmall d)
    (front : List Char) {behind : List Char} (hbehind : EndsRun behind) :
    u :: casedPart (front ++ [u]) run behind = caseWord u run := by
  have hsmall := isSmall_of_isCapital hu
  have hstarts : StartsRun (front ++ [u]) := startsRun_append_singleton hsmall
  have hpart : casedPart (front ++ [u]) run behind =
      if isInitialism (u :: run) then run.map capital else run := by
    apply List.ext_getElem (by split <;> simp [casedPart])
    intro k hk hk'
    have hlt : k < run.length := by simpa [casedPart] using hk
    simp only [casedPart, List.getElem_mapIdx, atPlace, raises_runAt hrun hstarts hbehind hlt,
      hrun _ (List.getElem_mem hlt)]
    by_cases hinit : isInitialism (u :: run) <;> simp [hinit, hu, isLetter]
  rw [hpart, caseWord_capital hu]
  split
  · rw [List.map_cons, capital_of_not_small hsmall]
  · rfl

/-- The passes write a text place by place. It may stand behind another one, whose last word must not
go on with it. -/
theorem casedPart_eq (cs : List Char) : ∀ front : List Char,
    (cs.head?.any isSmall → front.getLast?.any isLetter = false) → casedPart front cs [] = cased cs := by
  -- Each word is moved to the part in front, where it ends: the rest begins with no small letter.
  induction cs using wordInduction with
  | nil => exact fun _ _ => rfl
  | other c cs hc ih =>
    intro front _
    have hsmall := (isLetter_eq_false_iff.mp hc).1
    rw [← List.singleton_append, casedPart_append, casedPart_singleton hsmall, ih _ (by simp [hc])]
    exact (cased_cons_of_not_letter hc cs).symm
  | word c cs hc ih =>
    intro front hfront
    have hrun := forall_smallRun cs
    have hends := endsRun_dropWhile cs
    have hrest : (cs.dropWhile isSmall).head?.any isSmall = false := by
      cases hhead : (cs.dropWhile isSmall).head? with
      | none => rfl
      | some d => exact hends d hhead
    have hword : casedPart front (c :: smallRun cs) (cs.dropWhile isSmall) =
        caseWord c (smallRun cs) := by
      by_cases hsmall : isSmall c
      · exact casedPart_word (by simpa [hsmall] using hrun) (hfront (by simp [hsmall])) hends
      · have hcapital : isCapital c := by simpa [isLetter, hsmall] using hc
        rw [← List.singleton_append, casedPart_append, casedPart_singleton (by simpa using hsmall)]
        exact casedPart_run hcapital hrun front hends
    have hwhole : c :: smallRun cs ++ cs.dropWhile isSmall = c :: cs := by
      rw [List.cons_append, smallRun_append]
    rw [← hwhole, casedPart_append, List.append_nil, hword, ih _ (by simp [hrest]), hwhole,
      cased_cons_of_letter hc]

theorem cased_eq_map_atPlace (cs : List Char) : cased cs = cs.zipIdx.map (atPlace cs) := by
  have h := casedPart_eq cs [] (by simp)
  rw [← h, casedPart, List.mapIdx_eq_zipIdx_map]
  simp

/-- The name of a key has the letters and digits of the key, a digit at the beginning written as a
word, and each of them as its place has it. If there are none, it is the name for such keys. -/
theorem format_eq_atPlace (raw : String) :
    format raw =
      if (spellDigits raw.toList).any isAlphanumeric then
        String.ofList (((spellDigits raw.toList).zipIdx.filter fun x => isAlphanumeric x.1).map
          (atPlace (spellDigits raw.toList)))
      else failed := by
  rw [format, formatChars_eq]
  generalize spellDigits raw.toList = text
  have hkept : (cased text).filter isAlphanumeric =
      (text.zipIdx.filter fun x => isAlphanumeric x.1).map (atPlace text) := by
    have hcomp : isAlphanumeric ∘ atPlace text = fun x => isAlphanumeric x.1 :=
      funext (isAlphanumeric_atPlace text)
    rw [cased_eq_map_atPlace, List.filter_map, hcomp]
  have hany : (text.zipIdx.map Prod.fst).any isAlphanumeric =
      text.zipIdx.any fun x => isAlphanumeric x.1 := List.any_map
  rw [List.zipIdx_map_fst] at hany
  rw [hkept, hany]
  by_cases hname : text.zipIdx.any fun x => isAlphanumeric x.1
  · have hne : (text.zipIdx.filter fun x => isAlphanumeric x.1) ≠ [] := by
      simpa [List.filter_eq_nil_iff] using hname
    simp [hname, hne]
  · have hnil : (text.zipIdx.filter fun x => isAlphanumeric x.1) = [] := by
      simpa [List.filter_eq_nil_iff] using hname
    rw [hnil, if_neg hname]
    rfl

end GoShape.Identifier
