import Dimensional.Proofs.FirstSeen
import Dimensional.Proofs.Formula.Break
import Dimensional.Proofs.Formula.Reading
import Dimensional.Proofs.Formula.Sentence

/-!
# Formulas put together from texts

Texts that compile can be put in parentheses and joined by operators, or listed as arguments of a
function, whatever they are: the empty text, say, or one whose program does not evaluate.  Their
programs stay as they are.

Two things carry this.  In parentheses a text is cut into the tokens that it is cut into alone
(`scanFrom_inParens`), and up to the end of the parentheses these are put into the order that they
have alone, whatever waits around (`readsInside_of_toPostfix`).  Main statement: `compile_composed`.
-/

namespace Dimensional

/-- How an operator is written in front of its operand. -/
def UnaryOp.sign : UnaryOp → String
  | .minus => "-"
  | .not => "!"

namespace Formula

def inParens (text : String) : String := "(" ++ text ++ ")"

@[simp] theorem toList_inParens (text : String) :
    (inParens text).toList = '(' :: (text.toList ++ [')']) := by simp [inParens]

/-! ### What waits around parentheses

A text that compiles alone closes all the parentheses that it opens, and never looks below the
bottom of its stack.  So it makes no difference to it whether that bottom is the end of the stack
or a parenthesis: each function on the stack commutes with putting a parenthesis and more below. -/

namespace Pending

/-- What waits below a parenthesis has no part in what is read inside. -/
theorem inside_around_append_paren (pending waiting : List Pending) :
    inside (pending ++ .paren :: waiting) = inside pending ∧
      around (pending ++ .paren :: waiting) = around pending ++ .paren :: waiting := by
  have hparen : ∀ x ∈ (Pending.paren :: waiting).head?, (!x.isParen) = false := by
    intro x hx
    cases hx
    rfl
  have hsplit := takeWhile_dropWhile_append_stop pending hparen
  exact ⟨congrArg (List.map token) hsplit.1, hsplit.2⟩

theorem yielding_append_paren {incoming : Operator} {pending kept : List Pending}
    {applied : List Token} (h : yielding incoming pending = .ok (applied, kept))
    (waiting : List Pending) :
    yielding incoming (pending ++ .paren :: waiting) =
      .ok (applied, kept ++ .paren :: waiting) := by
  induction pending generalizing applied with
  | nil =>
    cases h
    rfl
  | cons top rest ih =>
    cases top with
    | operator op =>
      obtain ⟨yield, hyield, h⟩ := Fallible.bind_eq_ok_iff.1 h
      rw [List.cons_append, yielding, hyield]
      cases yield with
      | false =>
        cases h
        rfl
      | true =>
        obtain ⟨⟨more, kept⟩, hmore, h⟩ := Fallible.bind_eq_ok_iff.1 h
        cases h
        show (yielding incoming (rest ++ .paren :: waiting) >>= _) = _
        rw [ih hmore]
        rfl
    | call callee arity =>
      cases h
      rfl
    | paren =>
      cases h
      rfl

theorem called_append_paren (pending waiting : List Pending) :
    called (pending ++ .paren :: waiting) =
      ((called pending).1, (called pending).2 ++ .paren :: waiting) := by
  rcases pending with _ | ⟨_ | _ | _, _⟩ <;> rfl

/-- A token that is read above nothing is read alike above a parenthesis. -/
theorem after_append_paren {text : String} {pending kept : List Pending} {token : Token}
    {out : List Token} (h : after text pending token = .ok (out, kept)) (whole : String)
    (waiting : List Pending) :
    after whole (pending ++ .paren :: waiting) token = .ok (out, kept ++ .paren :: waiting) := by
  obtain ⟨hinside, haround⟩ := inside_around_append_paren pending waiting
  cases token with
  | number | name | call | leftParen =>
    cases h
    rfl
  | operator op =>
    obtain ⟨⟨applied, below⟩, hyielding, h⟩ := Fallible.map_eq_ok_iff.1 h
    cases h
    rw [after, yielding_append_paren hyielding waiting]
    rfl
  | comma =>
    rw [after] at h
    rw [after, haround, hinside]
    cases hopen : around pending with
    | nil =>
      rw [hopen] at h
      cases h
    | cons top below =>
      rw [hopen] at h
      cases h
      rfl
  | rightParen =>
    rw [after] at h
    rw [after, haround, hinside]
    cases hopen : around pending with
    | nil =>
      rw [hopen] at h
      cases h
    | cons top below =>
      rw [hopen] at h
      cases h
      simp only [List.cons_append, called_append_paren]
  | foreign => cases h

end Pending

/-! ### Postfix order in parentheses

The induction follows the reading of the text when it stands alone (`program_induction`).  At its
end only operators and calls wait, and where alone they come out by themselves, here the
separator takes them off. -/

namespace Token

open Pending

/-- What is read to the end when it stands alone is read alike above a parenthesis: there a token
puts the same into the program and leaves the same waiting, so that the separator meets what would
have been left at the end. -/
theorem postfixFrom_append_separator {text : String} {pending : List Pending}
    {tokens out : List Token} (h : postfixFrom text pending tokens = .ok out) (whole : String)
    (waiting : List Pending) {separator : Token}
    (hseparator : separator = .comma ∨ separator = .rightParen) (rest : List Token) :
    postfixFrom whole (pending ++ .paren :: waiting) (tokens ++ separator :: rest) =
      (postfixFrom whole (.paren :: waiting) (separator :: rest)).map (out ++ ·) := by
  refine program_induction
    (motive := fun pending tokens out =>
      postfixFrom whole (pending ++ .paren :: waiting) (tokens ++ separator :: rest) =
        (postfixFrom whole (.paren :: waiting) (separator :: rest)).map (out ++ ·)) ?_ ?_ h
  · exact fun pending hnoParen => postfixFrom_separator hnoParen hseparator whole waiting rest
  · intro pending token tokens out kept program hafter ih
    rw [List.cons_append, postfixFrom_cons, after_append_paren hafter whole waiting]
    show (postfixFrom whole (kept ++ .paren :: waiting) _).map _ = _
    rw [ih, Fallible.map_map]
    simp only [List.append_assoc]

/-- Tokens that have a postfix order have it in parentheses, too. -/
theorem readsInside_of_toPostfix {text : String} {tokens program : List Token}
    (h : toPostfix tokens text = .ok program) : ReadsInside tokens program :=
  fun whole waiting _ rest hseparator =>
    postfixFrom_append_separator h whole waiting hseparator rest

/-- What is read as an expression is the whole program where nothing follows. -/
theorem toPostfix_of_reads {tokens program : List Token} (h : Reads loosest tokens program)
    (text : String) : toPostfix tokens text = .ok program := by
  obtain ⟨out, ops, hops, rfl, hread⟩ := h text [] [] trivial
  have hparen : ops.any Pending.isParen = false := by simpa [NoParen] using hops.noParen
  rw [List.append_nil, List.append_nil] at hread
  rw [toPostfix, hread, postfixFrom, hparen]
  rfl

/-! ### Names -/

/-- Parentheses and commas refer to nothing. -/
theorem occurrences_arguments (args : List (List Token)) :
    occurrences (.leftParen :: ([Token.comma].intercalate args ++ [.rightParen])) =
      (args.map occurrences).flatten := by
  have hargs : occurrences ([Token.comma].intercalate args) = (args.map occurrences).flatten := by
    induction args with
    | nil => rfl
    | cons as more ih =>
      cases more with
      | nil => simp
      | cons bs more =>
        rw [List.intercalate_cons_cons, List.append_assoc, occurrences_append, List.map_cons,
          List.flatten_cons, ← ih]
        rfl
  show occurrences ([Token.comma].intercalate args ++ [.rightParen]) = _
  rw [occurrences_append, hargs]
  exact List.append_nil _

/-! ### Texts in parentheses -/

theorem scanFrom_leftParen (text : String) (operandExpected : Bool) (rest : List Char) :
    scanFrom text operandExpected ('(' :: rest) =
      (scanFrom text true rest).map (.leftParen :: ·) :=
  scanFrom_of_take (by decide) (take_leftParen operandExpected rest)

theorem scanFrom_rightParen (text : String) (operandExpected : Bool) (rest : List Char) :
    scanFrom text operandExpected (')' :: rest) =
      (scanFrom text false rest).map (.rightParen :: ·) :=
  scanFrom_of_take (by decide) (take_rightParen operandExpected rest)

theorem scanFrom_comma (text : String) (operandExpected : Bool) (rest : List Char) :
    scanFrom text operandExpected (',' :: rest) = (scanFrom text true rest).map (.comma :: ·) :=
  scanFrom_of_take (by decide) (take_comma operandExpected rest)

/-- In front of a comma or a parenthesis a text is cut into the tokens it is cut into alone. -/
theorem scanFrom_append_separator {part : String} {tokens : List Token}
    (h : scan part = .ok tokens) (text : String) {d : Char} (hd : d = ',' ∨ d = ')')
    (after : List Char) :
    ∃ operandExpected, scanFrom text true (part.toList ++ d :: after) =
      (scanFrom text operandExpected (d :: after)).map (tokens ++ ·) := by
  have hbreaks : Breaks d := by rcases hd with rfl | rfl <;> decide
  have hopens : opensNext (d :: after) = false := by rcases hd with rfl | rfl <;> rfl
  exact ⟨_, scanFrom_append (hbreaks.stops after) hopens true part.toList h text⟩

/-- Texts with commas between them, up to the parenthesis that closes them. -/
theorem scanFrom_arguments (text : String) (after : List Char)
    (args : List (String × List Token)) (hne : args ≠ [])
    (h : ∀ arg ∈ args, scan arg.1 = .ok arg.2) :
    scanFrom text true ([','].intercalate (args.map (·.1.toList)) ++ ')' :: after) =
      (scanFrom text false after).map
        ([Token.comma].intercalate (args.map Prod.snd) ++ .rightParen :: ·) := by
  induction args with
  | nil => exact absurd rfl hne
  | cons arg more ih =>
    have harg := h arg List.mem_cons_self
    cases more with
    | nil =>
      obtain ⟨operandExpected, hscan⟩ := scanFrom_append_separator harg text (.inr rfl) after
      simp only [List.map_cons, List.map_nil, List.intercalate_singleton]
      rw [hscan, scanFrom_rightParen, Fallible.map_map]
    | cons next more =>
      have hrest := ih (List.cons_ne_nil next more) fun x hx => h x (List.mem_cons_of_mem _ hx)
      obtain ⟨operandExpected, hscan⟩ := scanFrom_append_separator harg text (.inl rfl)
        ([','].intercalate ((next :: more).map (·.1.toList)) ++ ')' :: after)
      rw [scanFrom_comma, hrest, Fallible.map_map, Fallible.map_map] at hscan
      simpa only [List.map_cons, List.intercalate_cons_cons, List.append_assoc,
        List.cons_append, List.nil_append] using hscan

/-- Texts in parentheses, with commas between them, are cut into the tokens that they are cut into
alone. -/
theorem scanFrom_inParens (text : String) (operandExpected : Bool) (after : List Char)
    {args : List (String × List Token)} (hne : args ≠ [])
    (h : ∀ arg ∈ args, scan arg.1 = .ok arg.2) :
    scanFrom text operandExpected
        ((inParens (",".intercalate (args.map Prod.fst))).toList ++ after) =
      (scanFrom text false after).map
        (.leftParen :: ([Token.comma].intercalate (args.map Prod.snd) ++ [.rightParen]) ++ ·) := by
  have htext : (inParens (",".intercalate (args.map Prod.fst))).toList ++ after =
      '(' :: ([','].intercalate (args.map (·.1.toList)) ++ ')' :: after) := by
    simp [String.toList_intercalate, Function.comp_def]
  rw [htext, scanFrom_leftParen, scanFrom_arguments text after args hne h, Fallible.map_map]
  simp

theorem scanFrom_inParens_one (text : String) (operandExpected : Bool) (after : List Char)
    {part : String} {tokens : List Token} (h : scan part = .ok tokens) :
    scanFrom text operandExpected ((inParens part).toList ++ after) =
      (scanFrom text false after).map (.leftParen :: (tokens ++ [.rightParen]) ++ ·) := by
  have hone := scanFrom_inParens text operandExpected after (List.cons_ne_nil (part, tokens) [])
    (by simpa using h)
  simpa using hone

end Token

/-! ### Formulas from parts -/

open Token

/-- No token goes on with a parenthesis. -/
theorem stops_inParens (text : String) : Stops (inParens text).toList := by
  rw [toList_inParens]
  exact Breaks.stops (by decide) _

/-! The tokens of such texts. -/

theorem scan_binary {a b : String} {as bs : List Token} (op : BinaryOp) (ha : scan a = .ok as)
    (hb : scan b = .ok bs) :
    scan (inParens a ++ op.symbol ++ inParens b) =
      .ok ((.leftParen :: (as ++ [.rightParen])) ++
        .operator (.binary op) :: .leftParen :: (bs ++ [.rightParen])) := by
  generalize htext : inParens a ++ op.symbol ++ inParens b = text
  obtain ⟨c, cs, hsymbol, hblank, htake⟩ := take_symbol op (stops_inParens b)
  have hright : scanFrom text true (inParens b).toList =
      .ok (.leftParen :: (bs ++ [.rightParen])) := by
    simpa [scanFrom, Except.map] using scanFrom_inParens_one text true [] hb
  rw [scan, ← htext, String.toList_append, String.toList_append, List.append_assoc,
    scanFrom_inParens_one _ true _ ha, hsymbol, List.cons_append,
    scanFrom_of_take hblank (htake false), htext]
  show ((scanFrom text true (inParens b).toList).map _).map _ = _
  rw [hright]
  rfl

/-- In front of a parenthesis the sign of an operator is taken alone. -/
theorem take_unary (op : UnaryOp) (text : String) :
    ∃ c, op.sign.toList = [c] ∧ Character.isBlank c = false ∧
      take true c (inParens text).toList = .ok (.operator (.unary op), (inParens text).toList) := by
  cases op with
  | minus =>
    -- Where an operand has to follow, the symbol of subtraction is a sign.
    obtain ⟨c, cs, hsymbol, hblank, htake⟩ := take_symbol .sub (stops_inParens text)
    cases (hsymbol : ['-'] = c :: cs)
    exact ⟨'-', rfl, hblank, htake true⟩
  | not => exact ⟨'!', rfl, by decide, take_not true (stops_inParens text)⟩

theorem scan_unary {a : String} {as : List Token} (op : UnaryOp) (ha : scan a = .ok as) :
    scan (op.sign ++ inParens a) =
      .ok (.operator (.unary op) :: .leftParen :: (as ++ [.rightParen])) := by
  generalize htext : op.sign ++ inParens a = text
  obtain ⟨c, hsign, hblank, htake⟩ := take_unary op a
  have hright : scanFrom text true (inParens a).toList =
      .ok (.leftParen :: (as ++ [.rightParen])) := by
    simpa [scanFrom, Except.map] using scanFrom_inParens_one text true [] ha
  rw [scan, ← htext, String.toList_append, hsign, List.singleton_append,
    scanFrom_of_take hblank htake, htext]
  show (scanFrom text true (inParens a).toList).map _ = _
  rw [hright]
  rfl

/-- In front of a parenthesis the name of a function is a call. -/
theorem take_builtin (f : Builtin) (text : String) (operandExpected : Bool) :
    ∃ c cs, f.name.toList = c :: cs ∧ Character.isBlank c = false ∧
      take operandExpected c (cs ++ (inParens text).toList) =
        .ok (Tree.callToken f, (inParens text).toList) := by
  have hname : ∃ c cs, f.name.toList = c :: cs ∧ Character.isBlank c = false ∧ IsName c cs ∧
      Builtin.ofName? (String.ofList (c :: cs)) = some f := by
    cases f <;> exact ⟨_, _, rfl, by decide, by decide +kernel, rfl⟩
  obtain ⟨c, cs, hname, hblank, hisName, hf⟩ := hname
  refine ⟨c, cs, hname, hblank, take_call hisName hf ?_ ?_ operandExpected⟩
  · intro d hd
    exact (stops_inParens text d hd).name
  · rw [toList_inParens]
    rfl

theorem scan_call (f : Builtin) {args : List (String × List Token)} (hne : args ≠ [])
    (h : ∀ arg ∈ args, scan arg.1 = .ok arg.2) :
    scan (f.name ++ inParens (",".intercalate (args.map Prod.fst))) =
      .ok (Tree.callToken f :: .leftParen ::
        ([Token.comma].intercalate (args.map Prod.snd) ++ [.rightParen])) := by
  generalize htext : f.name ++ inParens (",".intercalate (args.map Prod.fst)) = text
  obtain ⟨c, cs, hname, hblank, htake⟩ :=
    take_builtin f (",".intercalate (args.map Prod.fst)) true
  have hargs : scanFrom text false (inParens (",".intercalate (args.map Prod.fst))).toList =
      .ok (.leftParen :: ([Token.comma].intercalate (args.map Prod.snd) ++ [.rightParen])) := by
    simpa [scanFrom, Except.map] using scanFrom_inParens text false [] hne h
  rw [scan, ← htext, String.toList_append, hname, List.cons_append,
    scanFrom_of_take hblank htake, htext]
  show (scanFrom text false (inParens _).toList).map _ = _
  rw [hargs]
  rfl

/-! What they compile to. -/

theorem compile_binary {a b : String} {f g : Formula} (op : BinaryOp) (hf : compile a = .ok f)
    (hg : compile b = .ok g) :
    compile (inParens a ++ op.symbol ++ inParens b) =
      .ok ⟨inParens a ++ op.symbol ++ inParens b,
        f.program ++ g.program ++ [.operator (.binary op)], (f.names ++ g.names).eraseDups⟩ := by
  obtain ⟨as, has, hfprogram, hfnames⟩ := scan_of_compile hf
  obtain ⟨bs, hbs, hgprogram, hgnames⟩ := scan_of_compile hg
  have hle : loosest ≤ op.precedence := by cases op <;> decide
  have hreads := reads_binary hle (reads_paren (readsInside_of_toPostfix hfprogram))
    (reads_paren (readsInside_of_toPostfix hgprogram))
  rw [compile_of_scan (scan_binary op has hbs) (toPostfix_of_reads hreads _), hfnames, hgnames]
  simp [Token.names, eraseDups_append_eraseDups, occurrences, references]

theorem compile_unary {a : String} {f : Formula} (op : UnaryOp) (hf : compile a = .ok f) :
    compile (op.sign ++ inParens a) =
      .ok ⟨op.sign ++ inParens a, f.program ++ [.operator (.unary op)], f.names⟩ := by
  obtain ⟨as, has, hprogram, hnames⟩ := scan_of_compile hf
  have hle : loosest ≤ tightest := by decide
  have hreads := @reads_unary _ op _ _ hle (reads_paren (readsInside_of_toPostfix hprogram))
  rw [compile_of_scan (scan_unary op has) (toPostfix_of_reads hreads _), hnames]
  simp [Token.names, occurrences, references]

theorem compile_call_of_ne_nil (f : Builtin) {args : List (String × Formula)} (hne : args ≠ [])
    (h : ∀ arg ∈ args, compile arg.1 = .ok arg.2) :
    compile (f.name ++ inParens (",".intercalate (args.map Prod.fst))) =
      .ok ⟨f.name ++ inParens (",".intercalate (args.map Prod.fst)),
        (args.map (·.2.program)).flatten ++ [Tree.callToken f],
        (args.map (·.2.names)).flatten.eraseDups⟩ := by
  choose! tokens hscan hprogram hnames using fun arg harg => scan_of_compile (h arg harg)
  have hscan := @scan_call f (args.map fun arg => (arg.1, tokens arg)) (by simpa using hne)
    (List.forall_mem_map.2 hscan)
  have hreads := @reads_call loosest f (args.map fun arg => (tokens arg, arg.2.program))
    (by simpa using hne)
    (List.forall_mem_map.2 fun arg harg => readsInside_of_toPostfix (hprogram arg harg))
  rw [List.map_map, List.map_map] at hscan hreads
  -- Repetitions may be erased in the arguments before they are erased in the whole.
  have hnames : Token.names (Tree.callToken f :: .leftParen ::
      ([Token.comma].intercalate (args.map tokens) ++ [.rightParen])) =
      (args.map (·.2.names)).flatten.eraseDups := by
    have hall : args.map (·.2.names) = ((args.map tokens).map occurrences).map List.eraseDups := by
      rw [List.map_map, List.map_map]
      exact List.map_congr_left hnames
    rw [hall, eraseDups_flatten_map, ← occurrences_arguments]
    rfl
  rw [← hnames]
  exact compile_of_scan hscan (toPostfix_of_reads hreads _)

theorem compile_empty : compile "" = .ok ⟨"", [], []⟩ := by
  have hscan : scan "" = .ok [] := scanFrom.eq_1 "" true
  exact compile_of_scan hscan rfl

/-- **Compiling is compositional.**  Texts that compile, in parentheses and with an operator between
or in front of them, or with commas between them behind the name of a function, compile to their
programs one after another with the operator or the call behind them.  The names are those of the
parts, in the order of their first occurrence. -/
theorem compile_composed :
    (∀ (op : BinaryOp) (a b : String) (f g : Formula), compile a = .ok f → compile b = .ok g →
      compile (inParens a ++ op.symbol ++ inParens b) =
        .ok ⟨inParens a ++ op.symbol ++ inParens b,
          f.program ++ g.program ++ [.operator (.binary op)], (f.names ++ g.names).eraseDups⟩) ∧
    (∀ (op : UnaryOp) (a : String) (f : Formula), compile a = .ok f →
      compile (op.sign ++ inParens a) =
        .ok ⟨op.sign ++ inParens a, f.program ++ [.operator (.unary op)], f.names⟩) ∧
    ∀ (f : Builtin) (args : List (String × Formula)),
      (∀ arg ∈ args, compile arg.1 = .ok arg.2) →
      compile (f.name ++ inParens (",".intercalate (args.map Prod.fst))) =
        .ok ⟨f.name ++ inParens (",".intercalate (args.map Prod.fst)),
          (args.map (·.2.program)).flatten ++ [Tree.callToken f],
          (args.map (·.2.names)).flatten.eraseDups⟩ := by
  refine ⟨?_, ?_, ?_⟩
  · intro op a b f g hf hg
    exact compile_binary op hf hg
  · intro op a f hf
    exact compile_unary op hf
  · intro f args h
    cases args with
    | nil =>
      -- Without arguments there is the empty text between the parentheses.
      have hempty : ∀ arg ∈ [("", (⟨"", [], []⟩ : Formula))], compile arg.1 = .ok arg.2 := by
        simpa using compile_empty
      have hcall := compile_call_of_ne_nil f (List.cons_ne_nil _ _) hempty
      exact hcall
    | cons arg more => exact compile_call_of_ne_nil f (List.cons_ne_nil arg more) h

/-- `y x`, which does not evaluate, joined to the empty text, which does not, either; a sign in
front of it; and three arguments, one of them empty, for a function that takes two. -/
theorem compile_parts_that_do_not_evaluate :
    compile "(y x)<=()" =
        .ok ⟨"(y x)<=()", [.name "y" "", .name "x" "", .operator (.binary .le)], ["y", "x"]⟩ ∧
      compile "-(y x)" =
        .ok ⟨"-(y x)", [.name "y" "", .name "x" "", .operator (.unary .minus)], ["y", "x"]⟩ ∧
      compile "max(y x,,y x)" =
        .ok ⟨"max(y x,,y x)",
          [.name "y" "", .name "x" "", .name "y" "", .name "x" "", Tree.callToken .max],
          ["y", "x"]⟩ := by
  have hscan : scan "y x" = .ok [.name "y" "", .name "x" ""] := by cbv
  have hpair : compile "y x" = .ok ⟨"y x", [.name "y" "", .name "x" ""], ["y", "x"]⟩ :=
    compile_of_scan hscan rfl
  have hsum : inParens "y x" ++ BinaryOp.le.symbol ++ inParens "" = "(y x)<=()" := by
    decide +kernel
  have hsign : UnaryOp.minus.sign ++ inParens "y x" = "-(y x)" := by decide +kernel
  have hlist : Builtin.max.name ++ inParens (",".intercalate ["y x", "", "y x"]) =
      "max(y x,,y x)" := by decide +kernel
  obtain ⟨hbinary, hunary, hcall⟩ := compile_composed
  rw [← hsum, ← hsign, ← hlist]
  refine ⟨hbinary .le "y x" "" _ _ hpair compile_empty, hunary .minus "y x" _ hpair, ?_⟩
  refine hcall .max [("y x", ⟨"y x", [.name "y" "", .name "x" ""], ["y", "x"]⟩),
    ("", ⟨"", [], []⟩), ("y x", ⟨"y x", [.name "y" "", .name "x" ""], ["y", "x"]⟩)] ?_
  simp [hpair, compile_empty]

end Formula

end Dimensional
