import ColonForth.Main
import ColonForth.Proofs.Alias.Cycle
import ColonForth.Proofs.Alias.Depth
import ColonForth.Proofs.Alias.Loop
import ColonForth.Proofs.Dictionary.BuiltinNames
import ColonForth.Proofs.Dictionary.Inlining
import ColonForth.Proofs.Dictionary.LastWrite
import ColonForth.Proofs.Screen.Highlight
import ColonForth.Proofs.Session.Answers
import ColonForth.Proofs.Session.BrokenInput
import ColonForth.Proofs.Session.Continuation
import ColonForth.Proofs.Session.Decoded
import ColonForth.Proofs.Session.JoinedLines
import ColonForth.Proofs.Session.LineEndings
import ColonForth.Proofs.Session.OutputCut
import ColonForth.Proofs.Session.ReadBack
import ColonForth.Proofs.Session.Transcript
import ColonForth.Proofs.Session.Typing
import ColonForth.Proofs.Stack.Below
import ColonForth.Proofs.Stack.Conservation
import ColonForth.Proofs.Stack.SumTree
import ColonForth.Proofs.Text.Spacing
import ColonForth.Proofs.Word.Slices
