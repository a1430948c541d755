import CFrontEnd.Main
import CFrontEnd.Command.Run
import CFrontEnd.Parser.Session
import CFrontEnd.Decimal.Numeral
import CFrontEnd.Proofs.Parser.Requests
import CFrontEnd.Proofs.Source.Diagnostics
import CFrontEnd.Proofs.Lexer.Coverage
import CFrontEnd.Proofs.Parser.Discipline
import CFrontEnd.Proofs.Source.Concatenation
import CFrontEnd.Proofs.Printing.Dump
import CFrontEnd.Proofs.Printing.RoundTrip
import CFrontEnd.Proofs.Tree.Census
import CFrontEnd.Proofs.Command.Agreement
import CFrontEnd.Proofs.Source.Trimming
import CFrontEnd.Proofs.Parser.Spelling
import CFrontEnd.Proofs.Source.Listing
import CFrontEnd.Proofs.Parser.Climbing
import CFrontEnd.Proofs.Parser.Expectations
import CFrontEnd.Proofs.Lexer.Priorities
import CFrontEnd.Proofs.Lexer.Boundaries
import CFrontEnd.Proofs.Lexer.Skipping
import CFrontEnd.Proofs.Source.Positions
import CFrontEnd.Proofs.Lexer.Neighbours
import CFrontEnd.Proofs.Source.Respacing
import CFrontEnd.Proofs.Parser.Structure
import CFrontEnd.Proofs.Tree.Traversal
import CFrontEnd.Proofs.Source.Literals
import CFrontEnd.Proofs.Source.Events
import CFrontEnd.Proofs.Source.Trees
import CFrontEnd.Proofs.Files.Beside
