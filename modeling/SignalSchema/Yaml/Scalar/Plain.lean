import SignalSchema.Yaml.Scalar.Gap

/-!
# Plain scalars

A scalar without quotes ends before a colon or comment sign that stands apart, before the
marks of flow collections inside of one, and at a line that is not indented enough.
-/

namespace SignalSchema.Yaml

/-- The marks that delimit the parts of flow collections. -/
def isFlowMark (c : Char) : Bool :=
  [',', '[', ']', '{', '}'].contains c

namespace Plain

/-- The longest word at the front of the characters, none if a colon in a flow collection runs
into one of its marks. -/
def word? (inFlow : Bool) : List Char → Option (List Char)
  | [] => some []
  | x :: rest =>
    let next := rest.head?
    if isBlank x || isBreak x then some []
    else if inFlow && x == ':' && next.any fun y => isFlowMark y || y == '?' then none
    else if x == ':' && next.all fun y => isBlank y || isBreak y then some []
    else if inFlow && isFlowMark x then some []
    else (word? inFlow rest).map (x :: ·)

/-- Reads on after `text` and a gap. The result is the whole text, whether it ends in a line
break that was passed over, and the place after. Lines go on from the column `least`. The fuel
exceeds the number of characters. -/
def read (inFlow : Bool) (least : Nat) :
    Nat → List Char → Gap → Cursor → Option (List Char × Bool × Cursor)
  | 0, _, _, _ => none
  | fuel + 1, text, gap, c =>
    if c.atDocumentMark || c.has 0 '#' then some (text, gap.spans, c)
    else do
      let word ← word? inFlow c.rest
      let c := c.skip word.length
      if word.isEmpty then some (text, gap.spans, c)
      else
        let text := text ++ gap.fold ++ word
        let (gap, c) ← Gap.read least fuel Gap.empty c
        if !inFlow && c.column < least then some (text, gap.spans, c)
        else read inFlow least fuel text gap c

end Plain

end SignalSchema.Yaml
