import CodeChunks.Language

namespace CodeChunks

inductive NameRule where
  | nameField
  | declarator
  | field
  | statement
  | «export»
  | decorated
  | expression
  deriving DecidableEq, Repr

inductive ChunkType where
  | function
  | «class»
  | interface
  | enum
  | typeAlias
  | module
  | variable
  | functionExpression
  | field
  | «import»
  | «export»
  | package
  | expression
  deriving DecidableEq, Repr

inductive Kind where
  | functionDeclaration
  | generatorFunctionDeclaration
  | classDeclaration
  | abstractClassDeclaration
  | lexicalDeclaration
  | variableDeclaration
  | fieldDefinition
  | publicFieldDefinition
  | importStatement
  | exportStatement
  | interfaceDeclaration
  | typeAliasDeclaration
  | enumDeclaration
  | functionSignature
  | internalModule
  | functionDefinition
  | classDefinition
  | decoratedDefinition
  | importFromStatement
  | futureImportStatement
  | expressionStatement
  | packageDeclaration
  | importDeclaration
  | recordDeclaration
  | annotationTypeDeclaration
  | methodDeclaration
  | constructorDeclaration
  | fieldDeclaration
  deriving DecidableEq, Repr

namespace ChunkType

def all : List ChunkType :=
  [.function, .class, .interface, .enum, .typeAlias, .module, .variable, .functionExpression,
    .field, .import, .export, .package, .expression]

@[simp] theorem mem_all (t : ChunkType) : t ∈ all := by cases t <;> decide

def name : ChunkType → String
  | .function => "function"
  | .class => "class"
  | .interface => "interface"
  | .enum => "enum"
  | .typeAlias => "type_alias"
  | .module => "module"
  | .variable => "variable"
  | .functionExpression => "function_expression"
  | .field => "field"
  | .import => "import"
  | .export => "export"
  | .package => "package"
  | .expression => "expression"

end ChunkType

namespace Kind

def nodeKind : Kind → String
  | .functionDeclaration => "function_declaration"
  | .generatorFunctionDeclaration => "generator_function_declaration"
  | .classDeclaration => "class_declaration"
  | .abstractClassDeclaration => "abstract_class_declaration"
  | .lexicalDeclaration => "lexical_declaration"
  | .variableDeclaration => "variable_declaration"
  | .fieldDefinition => "field_definition"
  | .publicFieldDefinition => "public_field_definition"
  | .importStatement => "import_statement"
  | .exportStatement => "export_statement"
  | .interfaceDeclaration => "interface_declaration"
  | .typeAliasDeclaration => "type_alias_declaration"
  | .enumDeclaration => "enum_declaration"
  | .functionSignature => "function_signature"
  | .internalModule => "internal_module"
  | .functionDefinition => "function_definition"
  | .classDefinition => "class_definition"
  | .decoratedDefinition => "decorated_definition"
  | .importFromStatement => "import_from_statement"
  | .futureImportStatement => "future_import_statement"
  | .expressionStatement => "expression_statement"
  | .packageDeclaration => "package_declaration"
  | .importDeclaration => "import_declaration"
  | .recordDeclaration => "record_declaration"
  | .annotationTypeDeclaration => "annotation_type_declaration"
  | .methodDeclaration => "method_declaration"
  | .constructorDeclaration => "constructor_declaration"
  | .fieldDeclaration => "field_declaration"

def nameRule : Kind → NameRule
  | .lexicalDeclaration | .variableDeclaration => .declarator
  | .fieldDefinition | .publicFieldDefinition | .fieldDeclaration => .field
  | .importStatement | .importFromStatement | .futureImportStatement | .importDeclaration
  | .packageDeclaration => .statement
  | .exportStatement => .export
  | .decoratedDefinition => .decorated
  | .expressionStatement => .expression
  | _ => .nameField

def chunkType : Kind → ChunkType
  | .functionDeclaration | .generatorFunctionDeclaration | .functionSignature
  | .functionDefinition | .methodDeclaration | .constructorDeclaration
  | .decoratedDefinition => .function
  | .classDeclaration | .abstractClassDeclaration | .classDefinition
  | .recordDeclaration => .class
  | .interfaceDeclaration | .annotationTypeDeclaration => .interface
  | .enumDeclaration => .enum
  | .typeAliasDeclaration => .typeAlias
  | .internalModule => .module
  | .lexicalDeclaration | .variableDeclaration => .variable
  | .fieldDefinition | .publicFieldDefinition | .fieldDeclaration => .field
  | .importStatement | .importFromStatement | .futureImportStatement
  | .importDeclaration => .import
  | .packageDeclaration => .package
  | .exportStatement => .export
  | .expressionStatement => .expression

end Kind

def Language.kinds : Language → List Kind
  | .javascript =>
    [.functionDeclaration, .generatorFunctionDeclaration, .classDeclaration,
      .lexicalDeclaration, .variableDeclaration, .fieldDefinition, .importStatement,
      .exportStatement]
  | .typescript =>
    [.functionDeclaration, .generatorFunctionDeclaration, .classDeclaration,
      .lexicalDeclaration, .variableDeclaration, .fieldDefinition, .importStatement,
      .exportStatement, .interfaceDeclaration, .typeAliasDeclaration, .enumDeclaration,
      .abstractClassDeclaration, .functionSignature, .internalModule, .publicFieldDefinition]
  | .python =>
    [.functionDefinition, .classDefinition, .decoratedDefinition, .importStatement,
      .importFromStatement, .futureImportStatement, .expressionStatement]
  | .java =>
    [.packageDeclaration, .importDeclaration, .classDeclaration, .interfaceDeclaration,
      .enumDeclaration, .recordDeclaration, .annotationTypeDeclaration, .methodDeclaration,
      .constructorDeclaration, .fieldDeclaration]

def Language.classify (l : Language) (nodeKind : String) : Option Kind :=
  l.kinds.find? (·.nodeKind == nodeKind)

end CodeChunks
