import PgShard.Datum

/-!
# The text form of a `Var` node

`nodeToString` and `stringToNode` as PostgreSQL's `outfuncs.c` and `readfuncs.c` handle a `Var`:
`_outVar` writes the nine fields as ` :name value` pairs inside braces, and `_readVar` reads them
back by position with `pg_strtok`, `atoi` and `strtoul`, skipping each field's name unread and
resetting `location` to `-1`. A string that does not open a `Var` node is read by readers the
model leaves out, and comes back as `Node.other`.

`stringToNode_nodeToString` is the round trip the partition key encoding relies on.
-/

set_option autoImplicit false

namespace PgShard

/-- `Var`, with the fields `_outVar` writes, in its order: `Index` and `Oid` fields are unsigned
32-bit, `AttrNumber` fields signed 16-bit, `vartypmod` and `location` signed 32-bit. -/
structure Var where
  varno : BitVec 32
  varattno : AttrNumber
  vartype : Oid
  vartypmod : BitVec 32
  varcollid : Oid
  varlevelsup : BitVec 32
  varnoold : BitVec 32
  varoattno : AttrNumber
  location : BitVec 32
  deriving DecidableEq, Repr

/-- `makeVar`: `varnoold` and `varoattno` copy `varno` and `varattno`, the location is unknown. -/
def makeVar (varno : BitVec 32) (varattno : AttrNumber) (vartype : Oid) (vartypmod : BitVec 32)
    (varcollid : Oid) (varlevelsup : BitVec 32) : Var :=
  ⟨varno, varattno, vartype, vartypmod, varcollid, varlevelsup, varno, varattno, -1⟩

/-- What `stringToNode` reads: a `Var`, or anything else (another node, or no node). -/
inductive Node where
  | var (v : Var)
  | other
  deriving DecidableEq, Repr

/-! ## Decimal numbers -/

def digitChar (d : Nat) : Char := Char.ofNat (48 + d)

theorem digitChar_spec (d : Nat) (small : d < 10) :
    (digitChar d).isDigit ∧ (digitChar d).toNat = 48 + d := by
  have all : ∀ d : Fin 10, (digitChar d).isDigit ∧ (digitChar d).toNat = 48 + d := by decide
  exact all ⟨d, small⟩

/-- The decimal digits of `n` in front of `acc`, most significant first; `fuel` bounds the number
of digits, and any `fuel > n` is enough. -/
def decimalCore : Nat → Nat → List Char → List Char
  | 0, _, acc => acc
  | fuel + 1, n, acc =>
      if n < 10 then digitChar n :: acc
      else decimalCore fuel (n / 10) (digitChar (n % 10) :: acc)

/-- `%u`. -/
def fmtUnsigned (n : Nat) : List Char := decimalCore (n + 1) n []

/-- `%d`. -/
def fmtSigned (i : Int) : List Char :=
  if i < 0 then '-' :: fmtUnsigned i.natAbs else fmtUnsigned i.toNat

/-- The decimal digits at the front of the input, read into `acc`, and the input after them. -/
def readDigits (acc : Nat) : List Char → Nat × List Char
  | c :: rest => if c.isDigit then readDigits (10 * acc + (c.toNat - 48)) rest else (acc, c :: rest)
  | [] => (acc, [])

/-- The blanks `isspace` skips. -/
def isCSpace (c : Char) : Bool :=
  c == ' ' || c == '\t' || c == '\n' || c == '\r' || c == '\x0b' || c == '\x0c'

/-- The sign `strtol` and `strtoul` accept in front of the digits: whether it is a minus. -/
def readSign : List Char → Bool × List Char
  | '-' :: s => (true, s)
  | '+' :: s => (false, s)
  | s => (false, s)

/-- `strtol(s, NULL, 10)` with a 64-bit `long`: blanks, a sign and the leading digits, clamped to
the range of `long`. -/
def strtol (s : List Char) : Int :=
  let (negative, digits) := readSign (s.dropWhile isCSpace)
  let n : Int := (readDigits 0 digits).1
  if negative then max (-n) (-2 ^ 63) else min n (2 ^ 63 - 1)

/-- `strtoul(s, NULL, 10)` with a 64-bit `unsigned long`: a value out of range gives `ULONG_MAX`,
and a minus sign negates the value modulo `2 ^ 64`. -/
def strtoul (s : List Char) : Nat :=
  let (negative, digits) := readSign (s.dropWhile isCSpace)
  let n := (readDigits 0 digits).1
  if 2 ^ 64 ≤ n then 2 ^ 64 - 1 else if negative then (2 ^ 64 - n) % 2 ^ 64 else n

/-- `atoi`: `(int) strtol(s, NULL, 10)`. -/
def atoi (s : List Char) : BitVec 32 := BitVec.ofInt 32 (strtol s)

/-- `atoui` and `atooid`: `(unsigned int) strtoul(s, NULL, 10)`. -/
def atoui (s : List Char) : BitVec 32 := BitVec.ofNat 32 (strtoul s)

/-! ## Tokens -/

def isStrtokSpace (c : Char) : Bool := c == ' ' || c == '\n' || c == '\t'

def isStrtokBracket (c : Char) : Bool := c == '(' || c == ')' || c == '\x7b' || c == '\x7d'

/-- The rest of a normal token and the input after it: up to a blank or a bracket, a backslash
taking the character after it into the token. -/
def tokenRest : List Char → List Char × List Char
  | [] => ([], [])
  | c :: rest =>
      if isStrtokSpace c || isStrtokBracket c then ([], c :: rest)
      else if c = '\\' then
        match rest with
        | [] => (['\\'], [])
        | c' :: rest' => ('\\' :: c' :: (tokenRest rest').1, (tokenRest rest').2)
      else (c :: (tokenRest rest).1, (tokenRest rest).2)

/-- `pg_strtok`: the next token and the input after it, `none` at the end of the input. A bracket is
a token of its own, and the empty token `<>` reads as `[]`. -/
def pgStrtok (s : List Char) : Option (List Char × List Char) :=
  match s.dropWhile isStrtokSpace with
  | [] => none
  | c :: rest =>
      if isStrtokBracket c then some ([c], rest)
      else
        let (tok, after) := tokenRest (c :: rest)
        some (if tok = ['<', '>'] then [] else tok, after)

/-! ## Writing and reading a `Var` -/

/-- One `WRITE_*_FIELD`: ` :name value`. -/
def writeField (name value : List Char) : List Char := ' ' :: ':' :: name ++ ' ' :: value

/-- `_outVar`'s nine fields. -/
def varFields (v : Var) : List Char :=
  writeField "varno".toList (fmtUnsigned v.varno.toNat) ++
  (writeField "varattno".toList (fmtSigned v.varattno.toInt) ++
  (writeField "vartype".toList (fmtUnsigned v.vartype.toNat) ++
  (writeField "vartypmod".toList (fmtSigned v.vartypmod.toInt) ++
  (writeField "varcollid".toList (fmtUnsigned v.varcollid.toNat) ++
  (writeField "varlevelsup".toList (fmtUnsigned v.varlevelsup.toNat) ++
  (writeField "varnoold".toList (fmtUnsigned v.varnoold.toNat) ++
  (writeField "varoattno".toList (fmtSigned v.varoattno.toInt) ++
  writeField "location".toList (fmtSigned v.location.toInt))))))))

/-- `nodeToString` of a `Var`: `_outNode`'s braces around the label and the fields. -/
def nodeToString (v : Var) : String := ⟨'\x7b' :: "VAR".toList ++ (varFields v ++ ['\x7d'])⟩

/-- One `READ_*_FIELD`: the `:name` token is skipped unread and the value token returned. At the end
of the input `pg_strtok` returns `NULL`, and `atoi(NULL)` reads through it. -/
def readField (s : List Char) : Except Fault (List Char × List Char) :=
  match pgStrtok s with
  | none => .error .crash
  | some (_, afterName) =>
      match pgStrtok afterName with
      | none => .error .crash
      | some field => .ok field

/-- `_readVar`: the nine fields in `_outVar`'s order; `location` is read and reset to `-1`. -/
def readVar (s : List Char) : Except Fault (Var × List Char) := do
  let (varno, s) ← readField s
  let (varattno, s) ← readField s
  let (vartype, s) ← readField s
  let (vartypmod, s) ← readField s
  let (varcollid, s) ← readField s
  let (varlevelsup, s) ← readField s
  let (varnoold, s) ← readField s
  let (varoattno, s) ← readField s
  let (_, s) ← readField s
  pure (⟨atoui varno, (atoi varattno).setWidth 16, atoui vartype, atoi vartypmod, atoui varcollid,
    atoui varlevelsup, atoui varnoold, (atoi varoattno).setWidth 16, -1⟩, s)

/-- `stringToNode`, as far as a `Var` goes: a left brace, the label `VAR`, the fields, and the right
brace `nodeRead` insists on. Any other start is `Node.other`. -/
def stringToNode (str : String) : Except Fault Node :=
  match pgStrtok str.toList with
  | some (['\x7b'], afterBrace) =>
      match pgStrtok afterBrace with
      | some (['V', 'A', 'R'], afterLabel) =>
          match readVar afterLabel with
          | .error e => .error e
          | .ok (v, afterFields) =>
              match pgStrtok afterFields with
              | some (['\x7d'], _) => .ok (.var v)
              | _ => .error (.ereport ⟨.internalError,
                  "did not find \x27\x7d\x27 at end of input node"⟩)
      | _ => .ok .other
  | _ => .ok .other

/-! ## Numbers read back -/

/-- The value of a list of decimal digits, read after `acc`. -/
def digitsValue (acc : Nat) (digits : List Char) : Nat :=
  digits.foldl (fun a c => 10 * a + (c.toNat - 48)) acc

theorem digitsValue_append_singleton (acc : Nat) (digits : List Char) (c : Char) :
    digitsValue acc (digits ++ [c]) = 10 * digitsValue acc digits + (c.toNat - 48) := by
  simp [digitsValue]

theorem readDigits_append (acc : Nat) (digits rest : List Char)
    (allDigits : ∀ c ∈ digits, c.isDigit) (stop : ∀ c ∈ rest.head?, c.isDigit = false) :
    readDigits acc (digits ++ rest) = (digitsValue acc digits, rest) := by
  induction digits generalizing acc with
  | nil =>
      cases rest with
      | nil => rfl
      | cons c rest => simp_all [readDigits, digitsValue]
  | cons d digits ih =>
      simp only [List.mem_cons, forall_eq_or_imp] at allDigits
      simp only [List.cons_append, readDigits, allDigits.1, if_true]
      exact ih _ allDigits.2

theorem decimalCore_acc (fuel n : Nat) (acc : List Char) :
    decimalCore fuel n acc = decimalCore fuel n [] ++ acc := by
  induction fuel generalizing n acc with
  | zero => rfl
  | succ fuel ih =>
      simp only [decimalCore]
      split
      · rfl
      · rw [ih, ih _ [_]]; simp

theorem decimalCore_ne_nil (fuel n : Nat) : decimalCore (fuel + 1) n [] ≠ [] := by
  simp only [decimalCore]
  split
  · simp
  · rw [decimalCore_acc]; simp

theorem decimalCore_isDigit (fuel n : Nat) : ∀ c ∈ decimalCore fuel n [], c.isDigit := by
  induction fuel generalizing n with
  | zero => simp [decimalCore]
  | succ fuel ih =>
      simp only [decimalCore]
      split
      · rename_i small
        simpa using (digitChar_spec n small).1
      · rw [decimalCore_acc]
        simp only [List.mem_append, List.mem_singleton]
        rintro c (inner | rfl)
        · exact ih _ c inner
        · exact (digitChar_spec (n % 10) (by omega)).1

theorem decimalCore_value (fuel n : Nat) (enough : n < fuel) :
    digitsValue 0 (decimalCore fuel n []) = n := by
  induction fuel generalizing n with
  | zero => omega
  | succ fuel ih =>
      simp only [decimalCore]
      split
      · rename_i small
        simp [digitsValue, (digitChar_spec n small).2]
      · rw [decimalCore_acc, digitsValue_append_singleton, ih _ (by omega),
          (digitChar_spec (n % 10) (by omega)).2]
        omega

theorem isCSpace_of_isDigit {c : Char} (digit : c.isDigit) : isCSpace c = false := by
  unfold isCSpace
  by_contra space
  simp only [Bool.not_eq_false, Bool.or_eq_true, beq_iff_eq] at space
  rcases space with ((((rfl | rfl) | rfl) | rfl) | rfl) | rfl <;> simp at digit

theorem readSign_of_isDigit {c : Char} (cs : List Char) (digit : c.isDigit) :
    readSign (c :: cs) = (false, c :: cs) := by
  have notMinus : c ≠ '-' := by rintro rfl; simp at digit
  have notPlus : c ≠ '+' := by rintro rfl; simp at digit
  simp [readSign, notMinus, notPlus]

theorem readSign_fmtUnsigned (n : Nat) :
    readSign ((fmtUnsigned n).dropWhile isCSpace) = (false, fmtUnsigned n) ∧
      (readDigits 0 (fmtUnsigned n)).1 = n := by
  have digits := decimalCore_isDigit (n + 1) n
  obtain ⟨c, cs, eq⟩ := List.exists_cons_of_ne_nil (decimalCore_ne_nil n n)
  have head := digits c (by simp [eq])
  refine ⟨?_, ?_⟩
  · rw [fmtUnsigned, eq, List.dropWhile_cons_of_neg (by simp [isCSpace_of_isDigit head]),
      readSign_of_isDigit _ head]
  · rw [← List.append_nil (fmtUnsigned n), fmtUnsigned, readDigits_append _ _ _ digits (by simp)]
    exact decimalCore_value _ _ (by omega)

theorem strtoul_fmtUnsigned (n : Nat) (fits : n < 2 ^ 64) : strtoul (fmtUnsigned n) = n := by
  obtain ⟨sign, value⟩ := readSign_fmtUnsigned n
  simp only [strtoul, sign]
  simp only [value, Bool.false_eq_true, if_false]
  exact if_neg (by omega)

theorem strtol_fmtSigned (i : Int) (fits : -2 ^ 63 ≤ i ∧ i < 2 ^ 63) :
    strtol (fmtSigned i) = i := by
  unfold fmtSigned
  split
  · obtain ⟨-, value⟩ := readSign_fmtUnsigned i.natAbs
    simp only [strtol, List.dropWhile_cons_of_neg (by decide : ¬ isCSpace '-' = true), readSign]
    simp only [value, if_true]
    omega
  · obtain ⟨sign, value⟩ := readSign_fmtUnsigned i.toNat
    simp only [strtol, sign]
    simp only [value, Bool.false_eq_true, if_false]
    omega

theorem atoui_fmtUnsigned (x : BitVec 32) : atoui (fmtUnsigned x.toNat) = x := by
  have := x.isLt
  rw [atoui, strtoul_fmtUnsigned _ (by omega), BitVec.ofNat_toNat, BitVec.setWidth_eq]

theorem toInt_bounds {w : Nat} (x : BitVec w) :
    -((2 ^ w : Nat) : Int) ≤ 2 * x.toInt ∧ 2 * x.toInt < ((2 ^ w : Nat) : Int) := by
  have lt := x.isLt
  rw [BitVec.toInt_eq_toNat_cond]
  generalize 2 ^ w = bound at *
  split <;> omega

theorem atoi_fmtSigned (x : BitVec 32) : atoi (fmtSigned x.toInt) = x := by
  have bounds := toInt_bounds x
  rw [atoi, strtol_fmtSigned _ (by omega)]
  apply BitVec.eq_of_toNat_eq
  rw [BitVec.toNat_ofInt, BitVec.toInt_eq_toNat_bmod, Int.bmod_emod]
  have := x.isLt
  omega

theorem atoi_fmtSigned_setWidth (x : AttrNumber) : (atoi (fmtSigned x.toInt)).setWidth 16 = x := by
  have bounds := toInt_bounds x
  rw [atoi, strtol_fmtSigned _ (by omega)]
  apply BitVec.eq_of_toNat_eq
  have := x.isLt
  rw [BitVec.toNat_setWidth, BitVec.toNat_ofInt, BitVec.toInt_eq_toNat_cond]
  split <;> omega

/-! ## Tokens read back -/

/-- A character `pg_strtok` keeps in a token as it is. -/
def plainChar (c : Char) : Bool := !(isStrtokSpace c || isStrtokBracket c || c == '\\')

/-- A token `pg_strtok` reads back as written: not empty, not `<>`, plain characters only. -/
def plainToken (tok : List Char) : Bool := !tok.isEmpty && tok != ['<', '>'] && tok.all plainChar

/-- Input that ends a token: nothing, or a blank or a bracket first. -/
def endsToken : List Char → Bool
  | [] => true
  | c :: _ => isStrtokSpace c || isStrtokBracket c

theorem tokenRest_stop {c : Char} (rest : List Char)
    (stop : (isStrtokSpace c || isStrtokBracket c) = true) :
    tokenRest (c :: rest) = ([], c :: rest) := by
  unfold tokenRest; simp [stop]

theorem tokenRest_cons {c : Char} (rest : List Char) (plain : plainChar c) :
    tokenRest (c :: rest) = (c :: (tokenRest rest).1, (tokenRest rest).2) := by
  simp only [plainChar, Bool.not_eq_true', Bool.or_eq_false_iff, beq_eq_false_iff_ne] at plain
  obtain ⟨⟨notSpace, notBracket⟩, notBackslash⟩ := plain
  conv => lhs; unfold tokenRest
  simp [notSpace, notBracket, notBackslash]

theorem tokenRest_append (tok rest : List Char) (plain : tok.all plainChar)
    (ends : endsToken rest) :
    tokenRest (tok ++ rest) = (tok, rest) := by
  induction tok with
  | nil =>
      cases rest with
      | nil => rfl
      | cons c rest => exact tokenRest_stop rest ends
  | cons c tok ih =>
      simp only [List.all_cons, Bool.and_eq_true] at plain
      rw [List.cons_append, tokenRest_cons _ plain.1, ih plain.2]

theorem pgStrtok_plain (tok rest : List Char) (plain : plainToken tok) (ends : endsToken rest) :
    pgStrtok (tok ++ rest) = some (tok, rest) := by
  simp only [plainToken, Bool.and_eq_true, Bool.not_eq_true', List.isEmpty_eq_false, bne_iff_ne,
    ne_eq] at plain
  obtain ⟨⟨nonEmpty, notEmptyToken⟩, chars⟩ := plain
  obtain ⟨c, cs, rfl⟩ := List.exists_cons_of_ne_nil nonEmpty
  simp only [List.all_cons, Bool.and_eq_true] at chars
  have head := chars.1
  simp only [plainChar, Bool.not_eq_true', Bool.or_eq_false_iff] at head
  unfold pgStrtok
  rw [List.cons_append, List.dropWhile_cons_of_neg (by simp [head.1.1])]
  simp only [head.1.2, if_false, Bool.false_eq_true]
  rw [← List.cons_append, tokenRest_append _ _ (by simp [chars.1, chars.2]) ends]
  simp [notEmptyToken]

theorem pgStrtok_space (s : List Char) : pgStrtok (' ' :: s) = pgStrtok s := by
  simp [pgStrtok, isStrtokSpace]

theorem pgStrtok_bracket {c : Char} (s : List Char) (bracket : isStrtokBracket c)
    (notSpace : isStrtokSpace c = false) : pgStrtok (c :: s) = some ([c], s) := by
  simp [pgStrtok, notSpace, bracket]

theorem plainChar_of_isDigit {c : Char} (digit : c.isDigit) : plainChar c := by
  unfold plainChar isStrtokSpace isStrtokBracket
  by_contra h
  simp only [Bool.not_eq_true', Bool.not_eq_false, Bool.or_eq_true, beq_iff_eq] at h
  rcases h with (((rfl | rfl) | rfl) | ((rfl | rfl) | rfl) | rfl) | rfl <;> simp at digit

theorem plainToken_fmtUnsigned (n : Nat) : plainToken (fmtUnsigned n) := by
  have digits := decimalCore_isDigit (n + 1) n
  obtain ⟨c, cs, eq⟩ := List.exists_cons_of_ne_nil (decimalCore_ne_nil n n)
  have head := digits c (by simp [eq])
  simp only [plainToken, fmtUnsigned, eq, List.isEmpty_cons, Bool.not_false, ne_eq, Bool.true_and,
    Bool.and_eq_true, bne_iff_ne, List.all_eq_true]
  refine ⟨?_, fun d mem => plainChar_of_isDigit (digits d (eq ▸ mem))⟩
  rintro ⟨rfl, -⟩
  simp at head

theorem plainToken_fmtSigned (i : Int) : plainToken (fmtSigned i) := by
  unfold fmtSigned
  split
  · have rest := plainToken_fmtUnsigned i.natAbs
    simp only [plainToken, Bool.and_eq_true] at rest
    simp [plainToken, rest.2, plainChar, isStrtokSpace, isStrtokBracket]
  · exact plainToken_fmtUnsigned _

theorem readField_writeField (name value rest : List Char) (plainName : plainToken (':' :: name))
    (plainValue : plainToken value) (ends : endsToken rest) :
    readField (writeField name value ++ rest) = .ok (value, rest) := by
  have first := pgStrtok_plain (':' :: name) (' ' :: (value ++ rest)) plainName rfl
  have second := pgStrtok_plain value rest plainValue ends
  simp only [List.cons_append] at first
  simp only [readField, writeField, List.cons_append, List.append_assoc, pgStrtok_space, first,
    second]

@[simp] theorem endsToken_writeField (name value rest : List Char) :
    endsToken (writeField name value ++ rest) = true := rfl

theorem readVar_varFields (v : Var) (rest : List Char) (ends : endsToken rest) :
    readVar (varFields v ++ rest) = .ok ({ v with location := -1 }, rest) := by
  simp +decide only [varFields, List.append_assoc, readVar, readField_writeField,
    plainToken_fmtUnsigned, plainToken_fmtSigned, endsToken_writeField, ends, except_ok_bind,
    except_map_ok, atoui_fmtUnsigned, atoi_fmtSigned, atoi_fmtSigned_setWidth]
  rfl

/-- `stringToNode` reads back every `Var` `nodeToString` writes, with the location reset. -/
theorem stringToNode_nodeToString (v : Var) :
    stringToNode (nodeToString v) = .ok (.var { v with location := -1 }) := by
  have brace : pgStrtok (nodeToString v).toList =
      some (['\x7b'], ['V', 'A', 'R'] ++ (varFields v ++ ['\x7d'])) := pgStrtok_bracket _ rfl rfl
  have label := pgStrtok_plain ['V', 'A', 'R'] (varFields v ++ ['\x7d']) rfl rfl
  have fields := readVar_varFields v ['\x7d'] rfl
  simp only [stringToNode, brace, label, fields]
  rfl

theorem stringToNode_nodeToString_makeVar (varno : BitVec 32) (varattno : AttrNumber)
    (vartype : Oid) (vartypmod : BitVec 32) (varcollid : Oid) (varlevelsup : BitVec 32) :
    stringToNode (nodeToString (makeVar varno varattno vartype vartypmod varcollid varlevelsup)) =
      .ok (.var (makeVar varno varattno vartype vartypmod varcollid varlevelsup)) :=
  stringToNode_nodeToString _

/-- The key of a table distributed on its first column, an `int4`, as text and back. -/
example : nodeToString (makeVar 1 1 int4Oid (-1) 0 0) =
      "\x7bVAR :varno 1 :varattno 1 :vartype 23 :vartypmod -1 :varcollid 0 :varlevelsup 0 " ++
        ":varnoold 1 :varoattno 1 :location -1\x7d" ∧
    stringToNode (nodeToString (makeVar 1 1 int4Oid (-1) 0 0)) =
      .ok (.var (makeVar 1 1 int4Oid (-1) 0 0)) :=
  ⟨rfl, rfl⟩

end PgShard
