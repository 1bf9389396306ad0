import Dimensional.Character.Blank
import Dimensional.Decimal.Numeral
import Dimensional.Error
import Dimensional.Formula.Token

/-!
# Cutting a formula into tokens

`Token.scan` cuts a text into tokens from left to right.  Blanks separate tokens and mean nothing
else.  A number or a name takes along the unit in brackets right behind it.  The name of a built-in
function is a call where a parenthesis follows, and a plain name elsewhere.  Whether a minus sign
has one operand or two depends on the token before it.

Each token is taken by `Token.take`, which leaves a shorter text (`length_lt_of_take`).
-/

namespace Dimensional.Formula.Token

/-! ### Parts of tokens -/

def isNameStart (c : Char) : Bool := Character.isLetter c || c = '_' || c = '$'

def isNamePart (c : Char) : Bool :=
  Character.isAlphanumeric c || c = '_' || c = '.' || c = '$'

def isNumberStart (c : Char) : Bool := Character.isDigit c || c = '.'

/-- Takes digits and points off the front of a text, and once among them an exponent mark with the
sign behind it. -/
def takeNumber (marked : Bool) : List Char → List Char × List Char
  | [] => ([], [])
  | c :: rest =>
    if isNumberStart c then
      let (literal, rest) := takeNumber marked rest
      (c :: literal, rest)
    else if !marked && (c = 'e' || c = 'E') then
      match rest with
      | [] => ([c], [])
      | sign :: rest =>
        if sign = '+' || sign = '-' then
          let (literal, rest) := takeNumber true rest
          (c :: sign :: literal, rest)
        else
          let (literal, rest) := takeNumber true (sign :: rest)
          (c :: literal, rest)
    else ([], c :: rest)

/-- What stands before the bracket that closes the outermost of `depth + 1` open ones, and what
follows it. -/
def takeBracketed? : Nat → List Char → Option (List Char × List Char)
  | _, [] => none
  | 0, ']' :: rest => some ([], rest)
  | depth + 1, ']' :: rest =>
    (takeBracketed? depth rest).map fun (inside, rest) => (']' :: inside, rest)
  | depth, c :: rest =>
    (takeBracketed? (if c = '[' then depth + 1 else depth) rest).map
      fun (inside, rest) => (c :: inside, rest)

/-- A fault and the part of the text that starts where it was met. -/
abbrev Misfit := ParseFault × List Char

/-- Takes a unit in brackets off the front of a text, if there is one; its text has no blanks at the
ends. -/
def takeUnit : List Char → Except Misfit (String × List Char)
  | '[' :: rest =>
    match takeBracketed? 0 rest with
    | some (inside, rest) => .ok (String.ofList (Character.strip inside), rest)
    | none => .error (.unclosedBracket, '[' :: rest)
  | cs => .ok ("", cs)

/-- Is a parenthesis opened next, blanks aside? -/
def opensNext (cs : List Char) : Bool := (cs.dropWhile Character.isBlank).head? = some '('

/-! ### Tokens -/

def takeQuantity (c : Char) (rest : List Char) : Except Misfit (Token × List Char) :=
  let number := takeNumber false (c :: rest)
  match Decimal.parseText? number.1 with
  | none => .error (.invalidNumber (String.ofList number.1), c :: rest)
  | some x =>
    -- Digits may spell a number beyond the floats, which reads as infinite.
    if x.isFinite then
      (takeUnit number.2).map fun (unitText, rest) => (.number x unitText, rest)
    else .error (.infiniteNumber (String.ofList number.1), c :: rest)

/-- A name with its unit, or the name of a function that is called.  The name of a function
without a parenthesis behind it is a plain name and may have a unit. -/
def takeName (c : Char) (rest : List Char) : Except Misfit (Token × List Char) :=
  let path := String.ofList (c :: rest.takeWhile isNamePart)
  let rest := rest.dropWhile isNamePart
  match Builtin.ofName? path, opensNext rest with
  | some f, true => .ok (.call (.builtin f) f.arity, rest)
  | _, _ => (takeUnit rest).map fun (unitText, rest) => (.name path unitText, rest)

def takeSign (operandExpected : Bool) (c : Char) (rest : List Char) :
    Except Misfit (Token × List Char) :=
  match c, rest with
  | '<', '=' :: rest => .ok (.operator (.binary .le), rest)
  | '>', '=' :: rest => .ok (.operator (.binary .ge), rest)
  | '=', '=' :: rest => .ok (.operator (.binary .eq), rest)
  | '!', '=' :: rest => .ok (.operator (.binary .ne), rest)
  | '&', '&' :: rest => .ok (.operator (.binary .and), rest)
  | '|', '|' :: rest => .ok (.operator (.binary .or), rest)
  | '(', rest => .ok (.leftParen, rest)
  | ')', rest => .ok (.rightParen, rest)
  | ',', rest => .ok (.comma, rest)
  | '!', rest => .ok (.operator (.unary .not), rest)
  | '-', rest => .ok (.operator (if operandExpected then .unary .minus else .binary .sub), rest)
  | '+', rest => .ok (.operator (.binary .add), rest)
  | '*', rest => .ok (.operator (.binary .mul), rest)
  | '/', rest => .ok (.operator (.binary .div), rest)
  | '^', rest => .ok (.operator (.binary .pow), rest)
  | '<', rest => .ok (.operator (.binary .lt), rest)
  | '>', rest => .ok (.operator (.binary .gt), rest)
  | c, rest => .error (.unexpectedCharacter c, c :: rest)

/-- Takes the first token off a text that does not start with a blank.  The first character alone
decides whether a number, a name or a sign is taken. -/
def take (operandExpected : Bool) (c : Char) (rest : List Char) :
    Except Misfit (Token × List Char) :=
  if isNumberStart c then takeQuantity c rest
  else if isNameStart c then takeName c rest
  else takeSign operandExpected c rest

/-! ### Every token takes at least one character

Without this the scan need not come to an end.  The parts are bounded one by one, `takeUnit` and
`takeNumber` weakly, because units may be missing and the first character of a number is counted
by its caller; the strict bound comes from the character that `take` looks at. -/

theorem length_takeNumber_le (marked : Bool) (cs : List Char) :
    (takeNumber marked cs).2.length ≤ cs.length := by
  fun_induction takeNumber marked cs <;> simp_all <;> omega

/-- A number takes its first character whatever that is followed by. -/
theorem length_takeNumber_lt {c : Char} (marked : Bool) (rest : List Char)
    (h : isNumberStart c = true) : (takeNumber marked (c :: rest)).2.length ≤ rest.length := by
  rw [takeNumber.eq_def]
  simpa only [h, if_true] using length_takeNumber_le marked rest

theorem length_lt_of_takeBracketed? {depth : Nat} {cs inside rest : List Char}
    (h : takeBracketed? depth cs = some (inside, rest)) : rest.length < cs.length := by
  induction cs generalizing depth inside with
  | nil => simp [takeBracketed?] at h
  | cons c cs ih =>
    -- The four equations: no text, the last bracket closed, an inner one closed, any other
    -- character.
    rw [takeBracketed?.eq_def] at h
    split at h
    · cases h
    · next heq =>
      cases heq
      cases h
      simp
    · next heq =>
      cases heq
      obtain ⟨part, hpart, heq⟩ := Option.map_eq_some_iff.1 h
      cases heq
      exact Nat.lt_succ_of_lt (ih hpart)
    · next heq =>
      cases heq
      obtain ⟨part, hpart, heq⟩ := Option.map_eq_some_iff.1 h
      cases heq
      exact Nat.lt_succ_of_lt (ih hpart)

theorem length_le_of_takeUnit {cs rest : List Char} {unitText : String}
    (h : takeUnit cs = .ok (unitText, rest)) : rest.length ≤ cs.length := by
  unfold takeUnit at h
  split at h
  · split at h
    · next hb =>
      cases h
      exact Nat.le_succ_of_le (Nat.le_of_lt (length_lt_of_takeBracketed? hb))
    · cases h
  · cases h
    exact Nat.le_refl _

/-- What is left behind a token is shorter than what it was taken from. -/
theorem length_lt_of_take {operandExpected : Bool} {c : Char} {rest tail : List Char}
    {token : Token} (h : take operandExpected c rest = .ok (token, tail)) :
    tail.length < (c :: rest).length := by
  unfold take at h
  split at h
  · next hc =>
    -- A number is as long as its digits, and its unit takes away some more.
    have hle := length_takeNumber_lt false rest hc
    unfold takeQuantity at h
    simp only at h
    split at h
    · cases h
    · split at h
      · cases hpart : takeUnit (takeNumber false (c :: rest)).2 with
        | error e =>
          rw [hpart] at h
          cases h
        | ok part =>
          rw [hpart] at h
          cases h
          exact Nat.lt_succ_of_le (Nat.le_trans (length_le_of_takeUnit hpart) hle)
      · cases h
  · split at h
    -- A name: the first character is gone already, so the rest need not get shorter.
    · have hle : (rest.dropWhile isNamePart).length ≤ rest.length :=
        (List.dropWhile_sublist isNamePart).length_le
      unfold takeName at h
      simp only at h
      split at h
      · cases h
        exact Nat.lt_succ_of_le hle
      · cases hpart : takeUnit (rest.dropWhile isNamePart) with
        | error e =>
          rw [hpart] at h
          cases h
        | ok part =>
          rw [hpart] at h
          cases h
          exact Nat.lt_succ_of_le (Nat.le_trans (length_le_of_takeUnit hpart) hle)
    · unfold takeSign at h
      split at h <;> cases h <;> simp only [List.length_cons] <;> omega

/-! ### The whole text -/

def scanFrom (text : String) (operandExpected : Bool) : List Char → Except Error (List Token)
  | [] => .ok []
  | c :: rest =>
    if Character.isBlank c then scanFrom text operandExpected rest
    else
      match h : take operandExpected c rest with
      | .error (fault, left) =>
        -- A misfit starts where the text that is left starts.
        .error (.parse fault text (some ((text.length - left.length : Nat) : Int)))
      | .ok (token, tail) =>
        have := length_lt_of_take h
        (scanFrom text token.expectsOperand tail).map (token :: ·)
termination_by cs => cs.length
decreasing_by
  · exact Nat.lt_succ_self _
  · exact this

def scan (text : String) : Except Error (List Token) := scanFrom text true text.toList

end Dimensional.Formula.Token
