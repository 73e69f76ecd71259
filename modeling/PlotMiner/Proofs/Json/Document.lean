import PlotMiner.Json.Document

/-!
# Documents and their tokens

Every document has a list of tokens that the reader makes it of again. The reader is followed from
the place where a value is expected to the place where it is complete, whatever is open around it,
so that the documents inside an array or object need nothing but the same statement.
-/

namespace PlotMiner.Json

namespace ReadState

theorem run_append (s : ReadState) (ts more : List Token) :
    s.run (ts ++ more) = (s.run ts).bind fun s' => s'.run more := by
  induction ts generalizing s with
  | nil => rfl
  | cons t ts ih =>
    simp only [List.cons_append, run]
    cases s.next t with
    | none => rfl
    | some s' => exact ih s'

theorem run_cons (s : ReadState) (t : Token) (ts : List Token) :
    s.run (t :: ts) = (s.next t).bind fun s' => s'.run ts := rfl

end ReadState

namespace Document

mutual

def tokens : Document → List Token
  | .null => [.null]
  | .bool b => [.bool b]
  | .number l => [.number l]
  | .string pieces => [.string pieces]
  | .array [] => [.arrayStart, .arrayEnd]
  | .array (d :: rest) => .arrayStart :: (tokens d ++ (itemTokens rest ++ [.arrayEnd]))
  | .object [] => [.objectStart, .objectEnd]
  | .object ((name, d) :: rest) =>
    .objectStart :: .string name :: .colon :: (tokens d ++ (fieldTokens rest ++ [.objectEnd]))

def itemTokens : List Document → List Token
  | [] => []
  | d :: rest => .comma :: (tokens d ++ itemTokens rest)

def fieldTokens : List (List Piece × Document) → List Token
  | [] => []
  | (name, d) :: rest => .comma :: .string name :: .colon :: (tokens d ++ fieldTokens rest)

end

open ReadState

/-- No value begins with the end of an array, so the first item of an array is read like any
other. -/
theorem run_arrayOpened (d : Document) (stack : List Frame) (more : List Token) :
    (arrayOpened stack).run (d.tokens ++ more) =
      (beforeValue (.array [] :: stack)).run (d.tokens ++ more) := by
  cases d with
  | array items => cases items <;> rfl
  | object fields => cases fields <;> rfl
  | _ => rfl

mutual

/-- The reader completes a document from its tokens. -/
theorem run_tokens (d : Document) (stack : List Frame) (more : List Token) :
    (beforeValue stack).run (d.tokens ++ more) = (complete d stack).run more := by
  match d with
  | .null | .bool _ | .number _ | .string _ | .array [] | .object [] => rfl
  | .array (d :: rest) =>
    calc
      _ = (arrayOpened stack).run (d.tokens ++ (itemTokens rest ++ .arrayEnd :: more)) := by
        simp only [tokens, List.cons_append, List.append_assoc, List.nil_append]
        rfl
      _ = (afterItem [d] stack).run (itemTokens rest ++ .arrayEnd :: more) := by
        rw [run_arrayOpened, run_tokens d]
        rfl
      _ = (afterItem (rest.reverse ++ [d]) stack).run (.arrayEnd :: more) := run_itemTokens ..
      _ = _ := by simp [run_cons, next]
  | .object ((name, d) :: rest) =>
    calc
      _ = (beforeValue (.object [] name :: stack)).run
          (d.tokens ++ (fieldTokens rest ++ .objectEnd :: more)) := by
        simp only [tokens, List.cons_append, List.append_assoc, List.nil_append]
        rfl
      _ = (afterField [(name, d)] stack).run (fieldTokens rest ++ .objectEnd :: more) := by
        rw [run_tokens d]
        rfl
      _ = (afterField (rest.reverse ++ [(name, d)]) stack).run (.objectEnd :: more) :=
        run_fieldTokens ..
      _ = _ := by simp [run_cons, next]

theorem run_itemTokens (items done : List Document) (stack : List Frame) (more : List Token) :
    (afterItem done stack).run (itemTokens items ++ more) =
      (afterItem (items.reverse ++ done) stack).run more := by
  match items with
  | [] => rfl
  | d :: rest =>
    calc
      _ = (beforeValue (.array done :: stack)).run (d.tokens ++ (itemTokens rest ++ more)) := by
        simp only [itemTokens, List.cons_append, List.append_assoc]
        rfl
      _ = (afterItem (d :: done) stack).run (itemTokens rest ++ more) := by
        rw [run_tokens d]
        rfl
      _ = _ := by
        rw [run_itemTokens rest]
        simp

theorem run_fieldTokens (fields done : List (List Piece × Document)) (stack : List Frame)
    (more : List Token) :
    (afterField done stack).run (fieldTokens fields ++ more) =
      (afterField (fields.reverse ++ done) stack).run more := by
  match fields with
  | [] => rfl
  | (name, d) :: rest =>
    calc
      _ = (beforeValue (.object done name :: stack)).run
          (d.tokens ++ (fieldTokens rest ++ more)) := by
        simp only [fieldTokens, List.cons_append, List.append_assoc]
        rfl
      _ = (afterField ((name, d) :: done) stack).run (fieldTokens rest ++ more) := by
        rw [run_tokens d]
        rfl
      _ = _ := by
        rw [run_fieldTokens rest]
        simp

end

theorem ofTokens?_tokens (d : Document) : ofTokens? d.tokens = some d := by
  have hrun : (beforeValue []).run d.tokens = some (.done d) := by
    have h := run_tokens d [] []
    rwa [List.append_nil] at h
  rw [ofTokens?, hrun]

end Document

end PlotMiner.Json
