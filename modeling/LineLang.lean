import LineLang.Main
import LineLang.SymbolTable.Request
import LineLang.Proofs.Lowercase
import LineLang.Proofs.Pattern
import LineLang.Proofs.Category
import LineLang.Proofs.Scan
import LineLang.Proofs.Line
import LineLang.Proofs.SymbolTable
import LineLang.Proofs.Declaration
import LineLang.Proofs.Request
import LineLang.Proofs.Grammar
import LineLang.Proofs.Program
import LineLang.Proofs.Resolution
import LineLang.Proofs.Collapse
import LineLang.Proofs.Linking
import LineLang.Proofs.Printing
import LineLang.Proofs.LineEnd
import LineLang.Proofs.Position
import LineLang.Proofs.Comment
import LineLang.Proofs.Returns
import LineLang.Proofs.ErrorPlace
import LineLang.Proofs.SingleScope
import LineLang.Proofs.Widening
import LineLang.Proofs.Spacing
import LineLang.Proofs.Check
import LineLang.Proofs.Instruction
import LineLang.Proofs.Grouping
import LineLang.Proofs.Slice
import LineLang.Proofs.Rescan
import LineLang.Proofs.Diagnostic
import LineLang.Proofs.Overlap
import LineLang.Proofs.Offset
import LineLang.Proofs.ArraySize
import LineLang.Proofs.Independence
import LineLang.Proofs.Log
import LineLang.Proofs.LineOrder
import LineLang.Proofs.LetterCase
import LineLang.Proofs.Recasing
import LineLang.Proofs.Spelling
import LineLang.Proofs.Arrangement
