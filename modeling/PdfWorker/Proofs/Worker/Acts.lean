import Mathlib.Logic.Relation
import PdfWorker.Worker
set_option autoImplicit false

/-! # What a conversion does to the world

A conversion acts on the world by single calls, to the engine and to the file tree
(`World.Converts`), and a worker puts calls to the capture around it (`World.Acts`).
`Conversion.convertFile_acts` and `Conversion.convertDocument_acts` say that a conversion is a
sequence of the former, `Worker.convert_acts` and `Worker.convertDocument_acts` that what a worker
does about one is a sequence of the latter. So what each call keeps, every conversion keeps.
-/

namespace PdfWorker

open Relation (ReflTransGen)

variable {ε δ κ : Type}

/-- **One call of a conversion**, to the engine or to the file tree. -/
inductive World.Converts (host : Host ε δ κ) (world : World ε κ) : World ε κ → Prop where
  | load (path : String) (password : Option String) :
      Converts host world (world.load host path password).2
  | exportPdf (document : δ) (output : String) (format : Format) (options : Options) :
      Converts host world (world.exportPdf host document output format options).2
  | changeFiles (files : FileTree) : Converts host world { world with files }

/-- **One call of a worker that converts**: one of the conversion, or one to the capture. -/
inductive World.Acts (host : Host ε δ κ) (world : World ε κ) : World ε κ → Prop where
  | converts {next} : Converts host world next → Acts host world next
  | startCapture : Acts host world (world.startCapture host).2
  | stopCapture : Acts host world (world.stopCapture host)
  | readCapture : Acts host world (world.readCapture host).2

open World (Acts Converts)

namespace Conversion

theorem convertFile_acts (host : Host ε δ κ) (input output : String) (format : Format)
    (options : Options) (world : World ε κ) :
    ReflTransGen (Converts host) world (convertFile host input output format options world).2 := by
  unfold convertFile
  split
  · have hload : Converts host world (world.load host input options.password).2 := .load ..
    revert hload
    rcases world.load host input options.password with ⟨e | document, next⟩
    · exact .single
    · intro hload
      exact (ReflTransGen.single hload).tail (.exportPdf document output format options)
  · exact .refl

theorem convertStaged_acts (host : Host ε δ κ) (input output : String) (format : Format)
    (options : Options) (world : World ε κ) :
    ReflTransGen (Converts host) world (convertStaged host input output format options world).2 := by
  have h := convertFile_acts host input output format options world
  unfold convertStaged
  revert h
  rcases convertFile host input output format options world with ⟨e | u, next⟩ <;> exact id

theorem convertToReserved_acts (host : Host ε δ κ) (input : String) (format : Format)
    (options : Options) (world : World ε κ) :
    ReflTransGen (Converts host) world (convertToReserved host input format options world).2 := by
  unfold convertToReserved
  split
  · exact .refl
  · rename_i output files _
    have h := convertStaged_acts host input output format options { world with files }
    exact ((ReflTransGen.single (.changeFiles files)).trans h).tail (.changeFiles _)

theorem convertAs_acts (host : Host ε δ κ) (document : ByteArray) (extension : String)
    (format : Format) (options : Options) (world : World ε κ) :
    ReflTransGen (Converts host) world (convertAs host document extension format options world).2 := by
  unfold convertAs
  split
  · exact .single (.changeFiles _)
  · rename_i input files _
    have h := convertToReserved_acts host input format options { world with files }
    exact ((ReflTransGen.single (.changeFiles files)).trans h).tail (.changeFiles _)

theorem convertDocument_acts (host : Host ε δ κ) (document : ByteArray) (format : Format)
    (options : Options) (world : World ε κ) :
    ReflTransGen (Converts host) world (convertDocument host document format options world).2 := by
  unfold convertDocument
  split
  · exact .refl
  · split
    · exact .refl
    · exact convertAs_acts ..

end Conversion

namespace Worker

theorem captured_acts {α : Type} (host : Host ε δ κ) {call : World ε κ → α × World ε κ}
    (h : ∀ world, ReflTransGen (Converts host) world (call world).2) (world : World ε κ) :
    ReflTransGen (Acts host) world (captured host call world).2.2 := by
  have hcall := fun world => ReflTransGen.mono (fun _ _ => Acts.converts) _ _ (h world)
  have hstart : Acts host world (world.startCapture host).2 := .startCapture
  unfold captured
  revert hstart
  rcases world.startCapture host with ⟨e | u, next⟩
  · intro hstart
    exact (ReflTransGen.single hstart).trans (hcall next)
  · intro hstart
    exact (((ReflTransGen.single hstart).trans (hcall next)).tail .stopCapture).tail .readCapture

/-- **Converting a file** is a sequence of calls. -/
theorem convert_acts (host : Host ε δ κ) (request : FileRequest) (phase : Phase)
    (world : World ε κ) :
    ReflTransGen (Acts host) world (convert host request phase world).2 := by
  unfold convert
  split
  · rename_i input output _ _
    have h := captured_acts host
      (Conversion.convertFile_acts host input output request.format request.options) world
    revert h
    rcases captured host (Conversion.convertFile host input output request.format request.options)
      world with ⟨e | u, diagnostics, next⟩ <;> exact id
  · exact .refl
  · exact .refl

/-- **Converting a document** is a sequence of calls. -/
theorem convertDocument_acts (host : Host ε δ κ) (request : BufferRequest)
    (document : Option ByteArray) (phase : Phase) (world : World ε κ) :
    ReflTransGen (Acts host) world (convertDocument host request document phase world).2 := by
  unfold convertDocument
  split
  · exact .refl
  · split
    · exact .refl
    · exact .refl
    · rename_i octets _
      split
      · exact .refl
      · have h := captured_acts host
          (Conversion.convertDocument_acts host octets request.format request.options) world
        revert h
        rcases captured host (Conversion.convertDocument host octets request.format
          request.options) world with ⟨e | pdf, diagnostics, next⟩ <;> exact id

end Worker

end PdfWorker
