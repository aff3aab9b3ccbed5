import TextPager.Main
import TextPager.Viewer.Drawing
import TextPager.Proofs.Man.Conservation
import TextPager.Proofs.Text.Filling
import TextPager.Proofs.Man.WordOrder
import TextPager.Proofs.Man.PageLines
import TextPager.Proofs.Viewer.CarriedPen
import TextPager.Proofs.Text.Escapes
import TextPager.Proofs.Text.StyledFilling
import TextPager.Proofs.Man.Grammar
import TextPager.Proofs.Man.Phrases
import TextPager.Proofs.Man.StyledPhrases
import TextPager.Proofs.Text.AsSeen
import TextPager.Proofs.Man.StyledLines
import TextPager.Proofs.Man.StyledLayout
import TextPager.Proofs.Page.KeptPages
import TextPager.Proofs.Viewer.InDocument
import TextPager.Proofs.Man.SectionStart
import TextPager.Proofs.Man.Shifts
import TextPager.Proofs.Text.KeptEscapes
import TextPager.Proofs.Text.EscapeForms
import TextPager.Proofs.Text.LineEndings
import TextPager.Proofs.Man.TreeShape
import TextPager.Proofs.Man.ClosedStyles
import TextPager.Proofs.Man.LineOrder
import TextPager.Proofs.Viewer.Hints
import TextPager.Proofs.Text.Numerals
import TextPager.Proofs.Config.EffectiveSettings
import TextPager.Proofs.Viewer.TypedJumps
import TextPager.Proofs.Viewer.Feedback
import TextPager.Proofs.Viewer.DrawnCells
import TextPager.Proofs.Viewer.FrameCells
import TextPager.Proofs.Viewer.ColumnWidths
import TextPager.Proofs.Viewer.BottomLine
import TextPager.Proofs.Viewer.IntactFrame
import TextPager.Proofs.Viewer.PageOnScreen
import TextPager.Proofs.Text.FilledLines
import TextPager.Proofs.Viewer.LongLines
import TextPager.Proofs.Man.Characters
import TextPager.Proofs.Page.Partition
import TextPager.Proofs.Page.LastPage
import TextPager.Proofs.Page.PrintedPages
import TextPager.Proofs.Text.Breaking
import TextPager.Proofs.Text.FewestLines
import TextPager.Proofs.Text.BrokenWords
import TextPager.Proofs.Text.StyledBreaking
import TextPager.Proofs.Page.TallerPages
import TextPager.Proofs.Text.Truncation
import TextPager.Proofs.Text.Paragraphs
import TextPager.Proofs.Text.Rewrapping
import TextPager.Proofs.Man.QuotedArguments
import TextPager.Proofs.Viewer.WalkedLines
import TextPager.Proofs.Viewer.ColourSelections
import TextPager.Proofs.Text.LineWidths
import TextPager.Proofs.Text.MachineFilling
import TextPager.Proofs.Man.RunningText
import TextPager.Proofs.Man.MachineLayout
import TextPager.Proofs.Man.ParagraphWidths
import TextPager.Proofs.Man.SectionWidths
