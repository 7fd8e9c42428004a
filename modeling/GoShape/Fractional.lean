/-! Marking numbers that are written with a point. A reader of values cannot tell `3.0` from `3`;
with a `1` for the `0` behind each point it can. The change is blind to what the text means: it
reaches strings and keys as well. -/
namespace GoShape

/-- Write `1` for each `0` right behind a point. -/
def markFractions : List Char → List Char
  | '.' :: '0' :: cs => '.' :: '1' :: markFractions cs
  | c :: cs => c :: markFractions cs
  | [] => []

def forceFractional (text : String) : String := String.ofList (markFractions text.toList)

theorem length_markFractions (cs : List Char) : (markFractions cs).length = cs.length := by
  fun_induction markFractions cs with
  | case1 cs ih => simp [ih]
  | case2 c cs h ih => simp [ih]
  | case3 => rfl

theorem toList_forceFractional (text : String) :
    (forceFractional text).toList = markFractions text.toList :=
  String.toList_ofList

example : forceFractional "[2.0, 10.05, 3.00]" = "[2.1, 10.15, 3.10]" := by decide +kernel

end GoShape
