import ResourceClasses.Files.Disk
import ResourceClasses.Files.FaultyDisk
import ResourceClasses.Main
import ResourceClasses.Proofs.ClassFile.Asks
import ResourceClasses.Proofs.ClassFile.Attributes
import ResourceClasses.Proofs.ClassFile.Code
import ResourceClasses.Proofs.ClassFile.CodeSize
import ResourceClasses.Proofs.ClassFile.Counts
import ResourceClasses.Proofs.ClassFile.Decoding
import ResourceClasses.Proofs.ClassFile.Descriptor
import ResourceClasses.Proofs.ClassFile.Entry
import ResourceClasses.Proofs.ClassFile.Forms
import ResourceClasses.Proofs.ClassFile.Instruction
import ResourceClasses.Proofs.ClassFile.InstructionLine
import ResourceClasses.Proofs.ClassFile.Listing
import ResourceClasses.Proofs.ClassFile.Lookup
import ResourceClasses.Proofs.ClassFile.Parts
import ResourceClasses.Proofs.ClassFile.Pool
import ResourceClasses.Proofs.ClassFile.PoolBytes
import ResourceClasses.Proofs.ClassFile.PoolCalls
import ResourceClasses.Proofs.ClassFile.PoolSlots
import ResourceClasses.Proofs.ClassFile.Progress
import ResourceClasses.Proofs.ClassFile.Reads
import ResourceClasses.Proofs.ClassFile.RoundTrip
import ResourceClasses.Proofs.ClassFile.StackDepth
import ResourceClasses.Proofs.ClassFile.Stocked
import ResourceClasses.Proofs.ClassFile.Tiling
import ResourceClasses.Proofs.ClassFile.Truncation
import ResourceClasses.Proofs.CommandLine.Loading
import ResourceClasses.Proofs.CommandLine.Numerals
import ResourceClasses.Proofs.Field.Filtering
import ResourceClasses.Proofs.Field.Refinement
import ResourceClasses.Proofs.Field.Table
import ResourceClasses.Proofs.Files.Below
import ResourceClasses.Proofs.Files.Deeds
import ResourceClasses.Proofs.Files.Disk
import ResourceClasses.Proofs.Files.FaultyDisk
import ResourceClasses.Proofs.Files.Passage
import ResourceClasses.Proofs.Files.Place
import ResourceClasses.Proofs.Generation.Chain
import ResourceClasses.Proofs.Generation.ChainPlan
import ResourceClasses.Proofs.Generation.Classes
import ResourceClasses.Proofs.Generation.Containment
import ResourceClasses.Proofs.Generation.EndToEnd
import ResourceClasses.Proofs.Generation.Exchange
import ResourceClasses.Proofs.Generation.Family
import ResourceClasses.Proofs.Generation.Faults
import ResourceClasses.Proofs.Generation.Initialization
import ResourceClasses.Proofs.Generation.InnerClass
import ResourceClasses.Proofs.Generation.Layout
import ResourceClasses.Proofs.Generation.Partition
import ResourceClasses.Proofs.Generation.Planned
import ResourceClasses.Proofs.Generation.ReadBack
import ResourceClasses.Proofs.Generation.Request
import ResourceClasses.Proofs.Generation.Room
import ResourceClasses.Proofs.Generation.SharedIdClass
import ResourceClasses.Proofs.Generation.Size
import ResourceClasses.Proofs.Generation.Values
import ResourceClasses.Proofs.Generation.Workshop
import ResourceClasses.Proofs.Machine.Basic
import ResourceClasses.Proofs.Machine.Run
import ResourceClasses.Proofs.Outcome
import ResourceClasses.Proofs.Path
import ResourceClasses.Proofs.SymbolFile.Concatenation
import ResourceClasses.Proofs.SymbolFile.Entries
import ResourceClasses.Proofs.SymbolFile.FirstImpossible
import ResourceClasses.Proofs.SymbolFile.Grammar
import ResourceClasses.Proofs.SymbolFile.Lines
import ResourceClasses.Proofs.SymbolFile.MemberNames
import ResourceClasses.Proofs.SymbolFile.Prompt
import ResourceClasses.Proofs.SymbolFile.Spacing
import ResourceClasses.Proofs.SymbolFile.Tokens
import ResourceClasses.Proofs.Text.Decimal
import ResourceClasses.Proofs.Text.ModifiedUtf8
import ResourceClasses.Proofs.Text.Numeral
import ResourceClasses.Proofs.Text.Spelling
