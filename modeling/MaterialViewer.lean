import MaterialViewer.Device.Basic
import MaterialViewer.Device.Headless
import MaterialViewer.Device.ProgramCache
import MaterialViewer.Device.Recording
import MaterialViewer.Device.Uniform
import MaterialViewer.Document.Basic
import MaterialViewer.Document.Element
import MaterialViewer.Document.Implementation
import MaterialViewer.Document.Library
import MaterialViewer.Document.Modifiers
import MaterialViewer.Document.Reading
import MaterialViewer.Document.Renderable
import MaterialViewer.Document.Transparency
import MaterialViewer.Files.Path
import MaterialViewer.Files.SearchPath
import MaterialViewer.Files.Tree
import MaterialViewer.Geometry.Matrix
import MaterialViewer.Geometry.Mesh
import MaterialViewer.Graph.Build
import MaterialViewer.Graph.ColorSpace
import MaterialViewer.Graph.Error
import MaterialViewer.Graph.FreshName
import MaterialViewer.Graph.Node
import MaterialViewer.Graph.Order
import MaterialViewer.Graph.Registry
import MaterialViewer.Image.Basic
import MaterialViewer.Image.BitField
import MaterialViewer.Image.Bmp
import MaterialViewer.Image.Bmp.Packed
import MaterialViewer.Image.Bytes
import MaterialViewer.Image.Cache
import MaterialViewer.Image.File
import MaterialViewer.Image.Placeholder
import MaterialViewer.Image.Png
import MaterialViewer.Image.Png.Chunk
import MaterialViewer.Image.Png.Deflate
import MaterialViewer.Image.Png.Interlace
import MaterialViewer.Image.Radiance
import MaterialViewer.Image.Tga
import MaterialViewer.Lighting.Rig
import MaterialViewer.Main
import MaterialViewer.Markup.Entity
import MaterialViewer.Markup.Event
import MaterialViewer.Notation.Basic
import MaterialViewer.Notation.Meaning
import MaterialViewer.Notation.Numeral
import MaterialViewer.Notation.Parser
import MaterialViewer.Notation.Printer
import MaterialViewer.Notation.Quoted
import MaterialViewer.Number.Decimal
import MaterialViewer.Number.Integer
import MaterialViewer.Number.Single
import MaterialViewer.Ordered
import MaterialViewer.Proofs.Device.Driven
import MaterialViewer.Proofs.Device.ExactPrograms
import MaterialViewer.Proofs.Device.Live
import MaterialViewer.Proofs.Device.ProgramCache
import MaterialViewer.Proofs.Device.Traced
import MaterialViewer.Proofs.Device.Uniforms
import MaterialViewer.Proofs.Document.Addressing
import MaterialViewer.Proofs.Document.Assembly
import MaterialViewer.Proofs.Document.Consumed
import MaterialViewer.Proofs.Document.Directives
import MaterialViewer.Proofs.Document.Includes
import MaterialViewer.Proofs.Document.Merging
import MaterialViewer.Proofs.Document.Modifiers
import MaterialViewer.Proofs.Document.Path
import MaterialViewer.Proofs.Document.Places
import MaterialViewer.Proofs.Document.Reading
import MaterialViewer.Proofs.Document.Redirect
import MaterialViewer.Proofs.Document.Resolution
import MaterialViewer.Proofs.Document.Siblings
import MaterialViewer.Proofs.Document.Written
import MaterialViewer.Proofs.Files.Location
import MaterialViewer.Proofs.Files.Writing
import MaterialViewer.Proofs.Graph.Coded
import MaterialViewer.Proofs.Graph.Conversions
import MaterialViewer.Proofs.Graph.Cycles
import MaterialViewer.Proofs.Graph.Depth
import MaterialViewer.Proofs.Graph.Frames
import MaterialViewer.Proofs.Graph.FreshName
import MaterialViewer.Proofs.Graph.Implemented
import MaterialViewer.Proofs.Graph.Interface
import MaterialViewer.Proofs.Graph.MissingNodes
import MaterialViewer.Proofs.Graph.Names
import MaterialViewer.Proofs.Graph.Order
import MaterialViewer.Proofs.Graph.Origins
import MaterialViewer.Proofs.Graph.Outcomes
import MaterialViewer.Proofs.Graph.PlainNames
import MaterialViewer.Proofs.Graph.Root
import MaterialViewer.Proofs.Graph.Sample
import MaterialViewer.Proofs.Graph.Sharing
import MaterialViewer.Proofs.Graph.Sites
import MaterialViewer.Proofs.Graph.SoftFailures
import MaterialViewer.Proofs.Graph.Sound
import MaterialViewer.Proofs.Graph.Steps
import MaterialViewer.Proofs.Graph.Transparency
import MaterialViewer.Proofs.Graph.Unfolding
import MaterialViewer.Proofs.Graph.Uniforms
import MaterialViewer.Proofs.Graph.Ways
import MaterialViewer.Proofs.Image.Cache
import MaterialViewer.Proofs.Image.Keys
import MaterialViewer.Proofs.Lighting.Dispatch
import MaterialViewer.Proofs.Lighting.LightData
import MaterialViewer.Proofs.Lists
import MaterialViewer.Proofs.Notation.Lists
import MaterialViewer.Proofs.Notation.Numeral
import MaterialViewer.Proofs.Notation.Parts
import MaterialViewer.Proofs.Notation.Quoted
import MaterialViewer.Proofs.Notation.RoundTrip
import MaterialViewer.Proofs.Number.Decimal
import MaterialViewer.Proofs.Number.Integer
import MaterialViewer.Proofs.Number.Rounding
import MaterialViewer.Proofs.Rendering.Binding
import MaterialViewer.Proofs.Rendering.Drawing
import MaterialViewer.Proofs.Rendering.Independence
import MaterialViewer.Proofs.Rendering.Lifecycle
import MaterialViewer.Proofs.Rendering.Liveness
import MaterialViewer.Proofs.Rendering.Material
import MaterialViewer.Proofs.Rendering.Pictures
import MaterialViewer.Proofs.Rendering.Probing
import MaterialViewer.Proofs.Rendering.Renderer
import MaterialViewer.Proofs.Rendering.Samplers
import MaterialViewer.Proofs.Rendering.Script
import MaterialViewer.Proofs.Rendering.Units
import MaterialViewer.Proofs.Rendering.Writings
import MaterialViewer.Proofs.Settings.RoundTrip
import MaterialViewer.Proofs.Settings.Values
import MaterialViewer.Proofs.Shader.Declarations
import MaterialViewer.Proofs.Shader.DeclaredUniforms
import MaterialViewer.Proofs.Shader.Emission
import MaterialViewer.Proofs.Shader.Inclusions
import MaterialViewer.Proofs.Shader.Lines
import MaterialViewer.Proofs.Shader.Names
import MaterialViewer.Proofs.Shader.Parts
import MaterialViewer.Proofs.Shader.Paths
import MaterialViewer.Proofs.Shader.Sections
import MaterialViewer.Proofs.Shader.Sources
import MaterialViewer.Proofs.Shader.Stages
import MaterialViewer.Proofs.Shader.Templates
import MaterialViewer.Proofs.Shader.UniformLines
import MaterialViewer.Proofs.Shader.Uniforms
import MaterialViewer.Proofs.Text.Split
import MaterialViewer.Proofs.Value.RoundTrip
import MaterialViewer.Proofs.Viewer.Failure
import MaterialViewer.Proofs.Viewer.Frames
import MaterialViewer.Proofs.Viewer.ImageChanges
import MaterialViewer.Proofs.Viewer.Invariant
import MaterialViewer.Proofs.Viewer.Liveness
import MaterialViewer.Proofs.Viewer.Moves
import MaterialViewer.Proofs.Viewer.Reloads
import MaterialViewer.Proofs.Viewer.Single
import MaterialViewer.Proofs.Viewer.Steps
import MaterialViewer.Proofs.Viewer.Turns
import MaterialViewer.Rendering.Binding
import MaterialViewer.Rendering.Material
import MaterialViewer.Rendering.Renderer
import MaterialViewer.Settings.Basic
import MaterialViewer.Settings.Camera
import MaterialViewer.Settings.CommandLine
import MaterialViewer.Settings.File
import MaterialViewer.Settings.Reading
import MaterialViewer.Settings.Writing
import MaterialViewer.Shader.CodeBuffer
import MaterialViewer.Shader.Generate
import MaterialViewer.Shader.Generated
import MaterialViewer.Shader.Geometry
import MaterialViewer.Shader.Glsl
import MaterialViewer.Shader.Lights
import MaterialViewer.Shader.Options
import MaterialViewer.Shader.Source
import MaterialViewer.Shader.Statement
import MaterialViewer.Shader.Variable
import MaterialViewer.Text.Blank
import MaterialViewer.Text.Hidden
import MaterialViewer.Text.Lossy
import MaterialViewer.Text.Ranges
import MaterialViewer.Text.Split
import MaterialViewer.Text.Word
import MaterialViewer.Value.Basic
import MaterialViewer.Value.Type
import MaterialViewer.Viewer.Program
import MaterialViewer.Viewer.Session
