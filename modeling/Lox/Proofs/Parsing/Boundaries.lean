/-
This file proves that parsing is compositional where a statement ends. A program
that parses without errors is parsed in front of other tokens as by itself, and
the parser then goes on with those as if they stood alone, through their errors
as well. Only an `else` in front of them would be taken for a part of what
stands before.
-/

import Lox.Proofs.Lines.Derivations
import Lox.Proofs.Parsing.Bounds
import Lox.Proofs.Parsing.Limits

namespace Lox

open Grammar

namespace Parser

/-- Declarations of the grammar are parsed one by one, and then the parser goes on behind them. -/
theorem repeatUntil_of_repeated {bound fewer : Nat} {tokens rest left : List Token}
    {body values : List Stmt} {reports : List Report}
    (derives : Repeated Declaration tokens body rest) (separate : Avoids [.else] rest)
    (short : tokens.length < bound)
    (behind : repeatUntil atEnd (declaration bound) fewer rest = .done values left reports) :
    repeatUntil atEnd (declaration bound) (fewer + body.length) tokens =
      .done (body ++ values) left reports := by
  induction derives with
  | nil => exact behind
  | @cons tokens between rest first others parsed following inductionHypothesis =>
    have longer := parsed.length_lt
    have going : tokens.isEmpty = false := passes_isEmpty.passes _ parsed.begins
    have apart : Avoids [.else] between := by
      cases following with
      | nil => exact separate
      | cons next _ => exact avoids_of_begins next.begins (by decide)
    have taken := takes_declaration parsed bound short apart
    have further := inductionHypothesis separate (by omega) behind
    rw [List.length_cons, ← Nat.add_assoc, repeatUntil, bind_of_done rfl, going,
      if_neg Bool.false_ne_true, bind_of_done taken, bind_of_done further, Parse.after_nil,
      Parse.after_nil, pure_apply, Parse.after, List.append_nil]
    rfl

/-- The declarations of a program and of the tokens behind it. -/
theorem declarations_append {bound : Nat} {first second : List Token} {body values : List Stmt}
    {reports : List Report} (derives : Grammar.Program first body)
    (separate : Avoids [.else] second) (short : (first ++ second).length < bound)
    (parsed : declarations (second.length + 1) second = .done values [] reports) :
    declarations bound (first ++ second) = .done (body ++ values) [] reports := by
  have derives : Repeated Declaration (first ++ second) body second := by
    have moved := @Repeated.move id second _ _ _ derives
    rwa [carry, carry, Token.renumber_id, List.map_id, Stmt.map_renumber_id] at moved
  have enough : second.length + 1 ≤ bound := by
    rw [List.length_append] at short
    omega
  have behind : declarations bound second = .done values [] reports :=
    (Extends.declarations enough enough (Parse.ne_starved_of_done parsed)).trans parsed
  have whole := repeatUntil_of_repeated derives separate short behind
  obtain ⟨statements, later, ends⟩ := exists_declarations short
  rw [← whole]
  exact (Extends.declarations (Nat.le_refl _) (Nat.le_add_right _ _)
    (Parse.ne_starved_of_done ends)).symm

end Parser

namespace Program

/-- A program of which all tokens are parsed. -/
theorem ofStream_of_done {stream : TokenStream} {statements : List Stmt} {rest : List Token}
    {reports : List Report}
    (parsed : Parser.declarations (stream.tokens.length + 1) stream.tokens =
      .done statements rest reports) :
    ofStream stream = ⟨statements, reports.map (Report.diagnostic stream.eof.line)⟩ := by
  simp only [ofStream, parsed]

/-- Parsing is compositional at the end of a statement. If the first tokens parse without errors
and the second ones do not begin with `else`, then the two together have the statements of the
first and then those of the second, and exactly the diagnostics of the second, whatever errors the
parser recovers from there. -/
theorem ofStream_append {first second : List Token} {eof : Token}
    (clean : (ofStream ⟨first, eof⟩).clean = true) (separate : Parser.Avoids [.else] second) :
    ofStream ⟨first ++ second, eof⟩ =
      { statements := (ofStream ⟨first, eof⟩).statements ++ (ofStream ⟨second, eof⟩).statements
        diagnostics := (ofStream ⟨second, eof⟩).diagnostics } := by
  obtain ⟨rest, takes⟩ := (clean_ofStream_iff ⟨first, eof⟩ _).mp ⟨clean, rfl⟩
  have derives := Parser.program_of_takes takes
  obtain ⟨values, reports, parsed⟩ := Parser.exists_declarations (Nat.lt_succ_self second.length)
  have whole :=
    Parser.declarations_append derives separate (Nat.lt_succ_self (first ++ second).length) parsed
  rw [@ofStream_of_done ⟨second, eof⟩ _ _ _ parsed,
    @ofStream_of_done ⟨first ++ second, eof⟩ _ _ _ whole]

/-- Nested conditionals, the outer one of which an `else` could still follow, and behind them a
print statement without a value and another one. -/
theorem ofStream_append_broken :
    let eof : Token := ⟨.eof, "", 3⟩
    let first : List Token :=
      [⟨.if, "if", 1⟩, ⟨.leftParen, "(", 1⟩, ⟨.identifier, "a", 1⟩, ⟨.rightParen, ")", 1⟩,
        ⟨.if, "if", 1⟩, ⟨.leftParen, "(", 1⟩, ⟨.identifier, "b", 1⟩, ⟨.rightParen, ")", 1⟩,
        ⟨.print, "print", 1⟩, ⟨.number, "1", 1⟩, ⟨.semicolon, ";", 1⟩, ⟨.else, "else", 1⟩,
        ⟨.print, "print", 1⟩, ⟨.number, "2", 1⟩, ⟨.semicolon, ";", 1⟩]
    let second : List Token :=
      [⟨.print, "print", 2⟩, ⟨.semicolon, ";", 2⟩, ⟨.print, "print", 3⟩, ⟨.number, "3", 3⟩,
        ⟨.semicolon, ";", 3⟩]
    (ofStream ⟨first, eof⟩).clean = true ∧ Parser.Avoids [.else] second ∧
      (ofStream ⟨first ++ second, eof⟩).statements.length = 2 ∧
      (ofStream ⟨first ++ second, eof⟩).diagnostics =
        [.atToken ⟨.semicolon, ";", 2⟩ .expression] := by
  intro eof first second
  have clean : (ofStream ⟨first, eof⟩).clean = true := by decide +kernel
  have separate : Parser.Avoids [.else] second := Parser.avoids_cons.mpr (by decide)
  rw [ofStream_append clean separate]
  exact ⟨clean, separate, by decide +kernel, by decide +kernel⟩

end Program

end Lox
