/-
  ApiDocs.Proofs.Source.Positions

  Reading declarations by positions. A stretch of code is given by the position of its first token
  and the position behind its last one; brackets are matched by counting, wherever the reader comes
  to one. Such a reader can go wrong in ways that a reader of bracket trees cannot: there may be no
  token at a position, and a bracket may not be closed within the stretch. Each of these is a fault
  of its own here (`Fault`).

  Every reader ends because what it is to read next is a shorter stretch. The bounds that this
  takes are part of what `matching` and `statements` return (`Within`, `Range`); that reading a
  type moves on, and stays within its stretch, is `readType_bounds`.
-/

import ApiDocs.Proofs.Ensures
import ApiDocs.Source.Unit

namespace ApiDocs.Source.Positions

/-- Why reading stops. -/
inductive Fault where
  /-- There is no token at the position. -/
  | outOfRange (position : Nat)
  /-- No bracket closes the one on this line. -/
  | unclosedBracket (line : Nat)
  | refused (error : SyntaxError)
  deriving DecidableEq, Repr

variable (code : List Code)

/-! ## Tokens -/

/-- The token at a position. -/
def tokenAt (i : Nat) : Except Fault {token // code[i]? = some token} :=
  if h : i < code.length then
    .ok ⟨code[i], List.getElem?_eq_getElem h⟩
  else
    .error (.outOfRange i)

/-- The token at a position, if the stretch goes so far. -/
def tokenBefore? (i stop : Nat) : Except Fault (Option Code) :=
  if i < stop then do
    let token ← tokenAt code i
    return some token.1
  else
    return none

/-- The stretch goes on with a token of this kind. -/
def kindAt (i stop : Nat) (kind : TokenKind) : Except Fault Bool := do
  let token ← tokenBefore? code i stop
  return token.any (·.kind = kind)

/-- The stretch goes on with a token of this text that is no bracket. -/
def textAt (i stop : Nat) (text : String) : Except Fault Bool := do
  let token ← tokenBefore? code i stop
  return token.any fun token => !token.kind.isOpening && token.text = text

/-- The identifier that the stretch goes on with. -/
def identifierAt (i stop : Nat) : Except Fault (Option String) := do
  let token ← tokenBefore? code i stop
  return (token.filter (·.kind = .identifier)).map (·.text)

/-- The tokens of a stretch. -/
def tokensOf (i stop : Nat) : Except Fault (List Code) :=
  if i ≤ stop ∧ stop ≤ code.length then
    .ok ((code.drop i).take (stop - i))
  else
    .error (.outOfRange stop)

/-- The line of the token at a position; the first line of the text if there is none. -/
def lineOf (i : Nat) : Nat :=
  (code[i]?.map (·.line)).getD 1

/-- The comment group that documents the token at a position. -/
def docOf (i : Nat) : Option CommentGroup :=
  code[i]?.bind (·.doc)

/-! ## Brackets -/

/-- A position in a stretch. -/
abbrev Within (start stop : Nat) := {position // start ≤ position ∧ position < stop}

/-- From `i` on, the position at which the brackets that are open are closed; `depth` is their
number. -/
def closingFrom (start stop depth i : Nat) (h : start ≤ i) : Except Fault (Option (Within start stop)) :=
  if hi : i < stop then do
    let token ← tokenAt code i
    if token.1.kind.isOpening then
      closingFrom start stop (depth + 1) (i + 1) (by omega)
    else if token.1.kind.isClosing then
      if depth ≤ 1 then
        return some ⟨i, h, hi⟩
      else
        closingFrom start stop (depth - 1) (i + 1) (by omega)
    else
      closingFrom start stop depth (i + 1) (by omega)
  else
    return none
termination_by stop - i

/-- The position of the bracket that closes the one at `i`. -/
def matching (i stop : Nat) : Except Fault (Within i stop) := do
  match ← closingFrom code i stop 0 i (Nat.le_refl i) with
  | some close => return close
  | none =>
    let token ← tokenAt code i
    throw (.unclosedBracket token.1.line)

/-! ## Statements -/

/-- The position behind a statement. It is the position of the statement itself only if that is a
semicolon. -/
abbrev End (start stop : Nat) :=
  {next // start ≤ next ∧ next ≤ stop ∧
    (next = start → ∃ token, code[start]? = some token ∧ token.kind = .semicolon)}

variable {code} in
theorem End.lt {start stop : Nat} (next : End code start stop) {token : Code}
    (htoken : code[start]? = some token) (hkind : token.kind ≠ .semicolon) : start < next.1 := by
  refine Nat.lt_of_le_of_ne next.2.1 fun heq => ?_
  obtain ⟨other, hother, hsemicolon⟩ := next.2.2.2 heq.symm
  obtain rfl : token = other := Option.some.inj (htoken.symm.trans hother)
  exact hkind hsemicolon

/-- The number of brackets that are open behind a token. -/
def depthBehind (token : Code) (depth : Nat) : Except Fault Nat :=
  if token.kind.isOpening then
    .ok (depth + 1)
  else if token.kind.isClosing then
    if depth = 0 then
      .error (.refused (.unexpectedBracket token.line token.text))
    else
      .ok (depth - 1)
  else
    .ok depth

/-- The line that ends before position `i` ends the statement with this token. -/
def breaksAt (i stop depth : Nat) (token : Code) : Except Fault Bool := do
  if depth = 0 then
    let next ← tokenBefore? code i stop
    return next.any (·.newlineBefore) && token.endsStatement
  else
    return false

/-- From `i` on, the position behind the statement that starts at `start`. -/
def endFrom (start stop depth i : Nat) (hstart : start < stop) (hi : start ≤ i ∧ i ≤ stop) :
    Except Fault (End code start stop) :=
  if hstop : i < stop then do
    let token ← tokenAt code i
    if hsemicolon : token.1.kind = .semicolon ∧ depth = 0 then
      return ⟨i, by omega, by omega, fun heq => ⟨token.1, heq ▸ token.2, hsemicolon.1⟩⟩
    else do
      let depth ← depthBehind token.1 depth
      if ← breaksAt code (i + 1) stop depth token.1 then
        return ⟨i + 1, by omega, by omega, by omega⟩
      else
        endFrom start stop depth (i + 1) hstart (by omega)
  else if depth = 0 then
    return ⟨stop, by omega, by omega, by omega⟩
  else do
    let token ← tokenAt code start
    throw (.refused (.unbalancedBrackets token.1.line))
termination_by stop - i

/-- A stretch within another one, with at least one token. -/
structure Range (start stop : Nat) where
  first : Nat
  last : Nat
  start_le : start ≤ first
  first_lt : first < last
  last_le : last ≤ stop

/-- From `i` on, the statements of a stretch. -/
def statementsFrom (start stop i : Nat) (h : start ≤ i) : Except Fault (List (Range start stop)) :=
  if hi : i < stop then do
    let token ← tokenAt code i
    if hsemicolon : token.1.kind = .semicolon then
      statementsFrom start stop (i + 1) (by omega)
    else do
      let next ← endFrom code i stop 0 i hi (by omega)
      have hlt := next.lt token.2 hsemicolon
      let rest ← statementsFrom start stop next.1 (by omega)
      return ⟨i, next.1, h, hlt, next.2.2.1⟩ :: rest
  else
    return []
termination_by stop - i

/-- The statements of a stretch. -/
def statements (start stop : Nat) : Except Fault (List (Range start stop)) :=
  statementsFrom code start stop start (Nat.le_refl start)

/-! ## Types -/

/-- The tag that ends a field line, and the position behind the line without it. -/
def tagAt (start stop : Nat) : Except Fault (Option String × {line // line ≤ stop}) :=
  if start < stop then do
    let last ← tokenAt code (stop - 1)
    if last.1.kind.isString then
      return (some (String.ofList (unquote last.1.text.toList)), ⟨stop - 1, Nat.sub_le stop 1⟩)
    else
      return (none, ⟨stop, Nat.le_refl stop⟩)
  else
    return (none, ⟨stop, Nat.le_refl stop⟩)

/-- The line embeds its type: it starts with a star, or is one name, plain or qualified. -/
def embedsAt (start stop : Nat) : Except Fault Bool := do
  let first ← tokenAt code start
  if first.1.kind = .star then
    return true
  else if first.1.kind = .identifier then
    if stop - start = 1 then
      return true
    else if stop - start = 3 then
      let second ← tokenAt code (start + 1)
      return second.1.kind = .dot
    else
      return false
  else
    return false

/-- From `i` on, the comma-separated names that a line starts with, and the position behind them. -/
def namesFrom (start stop i : Nat) (h : start ≤ i) :
    Except Fault (List String × {next // start ≤ next}) :=
  if i < stop then do
    let name ← identifierAt code i stop
    if name.isNone then
      return ([], ⟨i, h⟩)
    else if ← kindAt code (i + 1) stop .comma then
      let rest ← namesFrom start stop (i + 2) (by omega)
      return (name.toList ++ rest.1, rest.2)
    else
      return (name.toList, ⟨i + 1, by omega⟩)
  else
    return ([], ⟨i, h⟩)
termination_by stop - i

/-- The position behind a bracket pair that follows on the same line. -/
def argumentsAt (i stop : Nat) : Except Fault Nat := do
  match ← tokenBefore? code i stop with
  | none => return i
  | some token =>
    if token.kind = .leftBracket && !token.newlineBefore then
      let close ← matching code i stop
      return close.1 + 1
    else
      return i

/-- A type name, qualified if a dot and a further identifier stand at `i`. -/
def nameAt (name : String) (i stop : Nat) : Except Fault (TypeExpr × Nat) := do
  let dot ← kindAt code i stop .dot
  let member ← identifierAt code (i + 1) stop
  match member.filter fun _ => dot with
  | some member =>
    let next ← argumentsAt code (i + 2) stop
    return (.named (some name) member, next)
  | none =>
    let next ← argumentsAt code i stop
    return (.named none name, next)

mutual

/-- The type at a position, and the position behind it. -/
def readType (i stop : Nat) : Except Fault (TypeExpr × Nat) :=
  if i < stop then do
    let token ← tokenAt code i
    match token.1.kind with
    | .star =>
      let target ← readType (i + 1) stop
      return (.pointer target.1, target.2)
    | .leftBracket =>
      let close ← matching code i stop
      let element ← readType (close.1 + 1) stop
      return (if close.1 = i + 1 then .slice element.1 else .array element.1, element.2)
    | .leftParen =>
      let close ← matching code i stop
      let inner ← readType (i + 1) close.1
      return (inner.1, close.1 + 1)
    | .operator =>
      if token.1.text = "<-" then
        let word ← textAt code (i + 1) stop "chan"
        let element ← readType (if word then i + 2 else i + 1) stop
        return (.channel element.1, element.2)
      else
        return (.unknown token.1.text, i + 1)
    | .identifier =>
      if token.1.text = "func" then
        return (.function, stop)
      else if token.1.text = "chan" then
        let arrow ← textAt code (i + 1) stop "<-"
        let element ← readType (if arrow then i + 2 else i + 1) stop
        return (.channel element.1, element.2)
      else
        let behind ← tokenBefore? code (i + 1) stop
        if token.1.text = "map" && behind.any (·.kind = .leftBracket) then
          let close ← matching code (i + 1) stop
          let key ← readType (i + 2) close.1
          let value ← readType (close.1 + 1) stop
          return (.map key.1 value.1, value.2)
        else if token.1.text = "struct" && behind.any (·.kind = .leftBrace) then
          let close ← matching code (i + 1) stop
          let fields ← readFields (i + 2) close.1
          return (.struct fields, close.1 + 1)
        else if token.1.text = "interface" && behind.any (·.kind = .leftBrace) then
          let close ← matching code (i + 1) stop
          return (.interface, close.1 + 1)
        else
          nameAt code token.1.text (i + 1) stop
    | _ => return (.unknown token.1.text, i + 1)
  else
    return (.unknown "", i)
termination_by 3 * (stop - i)
decreasing_by
  all_goals grind

/-- The field line of a stretch. A line that is only a tag is none. -/
def readField? (start stop : Nat) : Except Fault (Option Field) := do
  let line ← tagAt code start stop
  if line.2.1 = start then
    return none
  else if ← embedsAt code start line.2.1 then
    let type ← readType start line.2.1
    return some ⟨[], type.1, line.1, docOf code start⟩
  else
    let names ← namesFrom code start line.2.1 start (Nat.le_refl start)
    let type ← readType names.2.1 line.2.1
    return some ⟨names.1, type.1, line.1, docOf code start⟩
termination_by 3 * (stop - start) + 1
decreasing_by
  all_goals grind

/-- The field lines of a stretch. -/
def readFields (start stop : Nat) : Except Fault (List Field) := do
  let ranges ← statements code start stop
  let fields ← ranges.mapM fun range => readField? range.first range.last
  return fields.filterMap id
termination_by 3 * (stop - start) + 2
decreasing_by
  have hstart := range.start_le
  have hlast := range.last_le
  omega

end

/-! ### Bounds -/

section Bounds

variable {code} {i stop : Nat}

theorem tokenBefore?_eq_some {token : Code} (h : tokenBefore? code i stop = .ok (some token)) :
    i < stop ∧ code[i]? = some token := by
  rw [tokenBefore?] at h
  split at h
  · rename_i hi
    obtain ⟨found, -, hfound⟩ := except_bind_eq_ok_iff.1 h
    cases hfound
    exact ⟨hi, found.2⟩
  · cases h

/-- A word that is skipped stands in the stretch. -/
theorem textAt_skip {text : String} {found : Bool} (hi : i < stop)
    (h : textAt code (i + 1) stop text = .ok found) :
    i < (if found then i + 2 else i + 1) ∧ (if found then i + 2 else i + 1) ≤ stop := by
  cases found with
  | false => exact ⟨Nat.lt_succ_self i, hi⟩
  | true =>
    obtain ⟨token, htoken, htrue⟩ := except_bind_eq_ok_iff.1 h
    cases token with
    | none => cases htrue
    | some token => exact ⟨by simp, (tokenBefore?_eq_some htoken).1⟩

theorem lt_of_identifierAt {name : String} (h : identifierAt code i stop = .ok (some name)) :
    i < stop := by
  obtain ⟨token, htoken, hname⟩ := except_bind_eq_ok_iff.1 h
  cases token with
  | none => cases hname
  | some token => exact (tokenBefore?_eq_some htoken).1

theorem argumentsAt_next {next : Nat} (hi : i ≤ stop) (h : argumentsAt code i stop = .ok next) :
    i ≤ next ∧ next ≤ stop := by
  obtain ⟨token, -, h⟩ := except_bind_eq_ok_iff.1 h
  split at h
  · cases h
    exact ⟨Nat.le_refl i, hi⟩
  · split at h
    · obtain ⟨close, -, h⟩ := except_bind_eq_ok_iff.1 h
      cases h
      have hclose := close.2
      omega
    · cases h
      exact ⟨Nat.le_refl i, hi⟩

theorem nameAt_next {name : String} {type : TypeExpr} {next : Nat} (hi : i ≤ stop)
    (h : nameAt code name i stop = .ok (type, next)) : i ≤ next ∧ next ≤ stop := by
  obtain ⟨dot, -, h⟩ := except_bind_eq_ok_iff.1 h
  obtain ⟨member, hmember, h⟩ := except_bind_eq_ok_iff.1 h
  split at h
  · rename_i found hfound
    obtain ⟨next', hnext, h⟩ := except_bind_eq_ok_iff.1 h
    cases h
    have hlt := lt_of_identifierAt (hmember.trans (by rw [(Option.filter_eq_some_iff.1 hfound).1]))
    have hnext := argumentsAt_next (by omega) hnext
    omega
  · obtain ⟨next', hnext, h⟩ := except_bind_eq_ok_iff.1 h
    cases h
    exact argumentsAt_next hi hnext

/-- Reading a type goes on from where it starts, and stays within the stretch. -/
theorem readType_bounds {type : TypeExpr} {next : Nat} (hi : i ≤ stop)
    (h : readType code i stop = .ok (type, next)) :
    i ≤ next ∧ next ≤ stop ∧ (i < stop → i < next) := by
  induction hn : stop - i using Nat.strongRecOn generalizing i type next with
  | ind n ih =>
    subst hn
    rw [readType] at h
    split at h
    · rename_i hlt
      obtain ⟨token, -, h⟩ := except_bind_eq_ok_iff.1 h
      -- a type that is read further on
      have hlater : ∀ {j type}, i < j ∧ j ≤ stop → readType code j stop = .ok (type, next) →
          i ≤ next ∧ next ≤ stop ∧ (i < stop → i < next) := by
        intro j type hj hread
        have hbounds := ih (stop - j) (by omega) hj.2 hread rfl
        omega
      split at h
      · obtain ⟨target, hread, h⟩ := except_bind_eq_ok_iff.1 h
        cases h
        exact hlater ⟨Nat.lt_succ_self i, hlt⟩ hread
      · obtain ⟨close, -, h⟩ := except_bind_eq_ok_iff.1 h
        obtain ⟨element, hread, h⟩ := except_bind_eq_ok_iff.1 h
        have hclose := close.2
        cases h
        exact hlater (by omega) hread
      · obtain ⟨close, -, h⟩ := except_bind_eq_ok_iff.1 h
        obtain ⟨inner, -, h⟩ := except_bind_eq_ok_iff.1 h
        have hclose := close.2
        cases h
        omega
      · split at h
        · obtain ⟨word, hword, h⟩ := except_bind_eq_ok_iff.1 h
          obtain ⟨element, hread, h⟩ := except_bind_eq_ok_iff.1 h
          cases h
          exact hlater (textAt_skip hlt hword) hread
        · cases h
          omega
      · split at h
        · cases h
          omega
        split at h
        · obtain ⟨arrow, harrow, h⟩ := except_bind_eq_ok_iff.1 h
          obtain ⟨element, hread, h⟩ := except_bind_eq_ok_iff.1 h
          cases h
          exact hlater (textAt_skip hlt harrow) hread
        obtain ⟨behind, -, h⟩ := except_bind_eq_ok_iff.1 h
        split at h
        · obtain ⟨close, -, h⟩ := except_bind_eq_ok_iff.1 h
          obtain ⟨key, -, h⟩ := except_bind_eq_ok_iff.1 h
          obtain ⟨value, hread, h⟩ := except_bind_eq_ok_iff.1 h
          have hclose := close.2
          cases h
          exact hlater (by omega) hread
        split at h
        · obtain ⟨close, -, h⟩ := except_bind_eq_ok_iff.1 h
          obtain ⟨fields, -, h⟩ := except_bind_eq_ok_iff.1 h
          have hclose := close.2
          cases h
          omega
        split at h
        · obtain ⟨close, -, h⟩ := except_bind_eq_ok_iff.1 h
          have hclose := close.2
          cases h
          omega
        · have hname := nameAt_next hlt h
          omega
      · cases h
        omega
    · cases h
      omega

end Bounds

/-! ## Declarations -/

/-- The import of a stretch. -/
def readImport (start stop : Nat) : Except Fault Import := do
  let token ← tokenBefore? code start stop
  let name := (token.filter fun token => token.kind = .identifier || token.kind = .dot).map (·.text)
  let path ← tokenBefore? code (if name.isSome then start + 1 else start) stop
  match path.filter (·.kind.isString) with
  | some token => return ⟨name, String.ofList (unquote token.text.toList)⟩
  | none => throw (.refused (.importPath (lineOf code start)))

/-- What a stretch declares: one thing, or one for each statement inside parentheses. -/
def readGroup {α : Type} (start stop : Nat) (single each : Nat → Nat → Except Fault α) :
    Except Fault (List α) := do
  if ← kindAt code start stop .leftParen then
    let close ← matching code start stop
    let ranges ← statements code (start + 1) close.1
    ranges.mapM fun range => each range.first range.last
  else
    let item ← single start stop
    return [item]

/-- There is a comma among the tokens, inside the first bracket and no other one. -/
def hasComma (depth : Nat) : List Code → Bool
  | [] => false
  | token :: tokens =>
    if token.kind.isOpening then
      hasComma (depth + 1) tokens
    else if token.kind.isClosing then
      if depth ≤ 1 then false else hasComma (depth - 1) tokens
    else if token.kind = .comma && depth = 1 then
      true
    else
      hasComma depth tokens

/-- The bracket at `i` starts a list of type parameters. -/
def parametersAt (i stop : Nat) : Except Fault Bool := do
  let name ← identifierAt code (i + 1) stop
  let next ← tokenBefore? code (i + 2) stop
  match name, next with
  | some _, some token =>
    match token.kind with
    | .identifier | .leftBracket | .comma => return true
    | .operator => return token.text = "~"
    | .star =>
      let tokens ← tokensOf code i stop
      return hasComma 0 tokens
    | _ => return false
  | _, _ => return false

/-- The position behind the type parameters that may stand at `i`. -/
def skipParameters (i stop : Nat) : Except Fault Nat := do
  if ← kindAt code i stop .leftBracket then
    if ← parametersAt code i stop then
      let close ← matching code i stop
      return close.1 + 1
    else
      return i
  else
    return i

/-- The position behind the equals sign that may stand at `i`. -/
def skipEquals (i stop : Nat) : Except Fault Nat := do
  let token ← tokenBefore? code i stop
  return if token.any fun token => token.kind = .operator && token.text = "=" then i + 1 else i

/-- The type declaration of a stretch. -/
def readTypeDecl (doc : Option CommentGroup) (start stop : Nat) : Except Fault TypeDecl := do
  match ← identifierAt code start stop with
  | none => throw (.refused (.typeName (lineOf code start)))
  | some name =>
    let i ← skipParameters code (start + 1) stop
    let i ← skipEquals code i stop
    let type ← readType code i stop
    return { name, type := type.1, doc }

/-- The function of a stretch that starts with `func`; none if no name follows. -/
def readFunc? (start stop : Nat) : Except Fault (Option FuncDecl) := do
  let doc := docOf code start
  if ← kindAt code (start + 1) stop .leftParen then
    let close ← matching code (start + 1) stop
    let tokens ← tokensOf code (start + 2) close.1
    let named := tokens.takeWhile (·.kind ≠ .leftBracket)
    let receiver := ((named.filter (·.kind = .identifier)).getLast?).map (·.text)
    let name ← identifierAt code (close.1 + 1) stop
    return name.map fun name => { name, receiver, doc }
  else
    let name ← identifierAt code (start + 1) stop
    return name.map fun name => { name, receiver := none, doc }

/-- Adds what the statement in a stretch declares. -/
def addStatement (d : Declarations) (start stop : Nat) : Except Fault Declarations := do
  match ← identifierAt code start stop with
  | some "package" => return { d with package := ← identifierAt code (start + 1) stop }
  | some "import" =>
    let imports ← readGroup code (start + 1) stop (readImport code) (readImport code)
    return { d with imports := d.imports ++ imports }
  | some "type" =>
    let types ← readGroup code (start + 1) stop (readTypeDecl code (docOf code start))
      fun first => readTypeDecl code (docOf code first) first
    return { d with types := d.types ++ types }
  | some "func" =>
    let function ← readFunc? code start stop
    return { d with functions := d.functions ++ function.toList }
  | _ => return d

/-- The unit that a token list declares. -/
def readUnit (path : String) (tokens : List Token) : Except Fault SourceUnit := do
  let layout := Layout.ofTokens tokens
  let ranges ← statements layout.code 0 layout.code.length
  let d ← ranges.foldlM (fun d range => addStatement layout.code d range.first range.last) {}
  match d.package with
  | none => throw (.refused .packageClause)
  | some package =>
    return {
      path, package
      imports := d.imports
      types := d.types
      functions := d.functions
      comments := layout.groups }

end ApiDocs.Source.Positions
