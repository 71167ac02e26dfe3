/-!
# Syntax faults

Why a source text is no declaration file. A cause has its wording in `Cause.message`; a fault is
a cause at a place, given in bytes from the start of the text.
-/

namespace Declutter.Syntax

/-- A stretch of a source text, in bytes from its start. -/
structure Span where
  start : Nat
  stop : Nat
  deriving DecidableEq, Repr, Inhabited

/-- What can be wrong with a source text. -/
inductive Cause where
  /-- A token other than the one that must stand here. -/
  | expected (token found : String)
  /-- A token that cannot stand here, and what can. -/
  | unexpected (found options : String)
  | unexpectedCharacter (shown : String)
  | endOfText
  | expectedExpression
  | expectedIdentifierWord
  | expectedIdentifier
  | expectedSemicolon
  | expectedStatementEnd
  | expectedDigit (radix : Nat)
  | expectedExponent
  | expectedUnicodeEscape
  | expectedStringLiteral
  | badEscape (wanted : String)
  | invalidUnicodeEscape
  | invalidStringEscape
  | invalidIdentifierCharacter
  | escapedReservedWord (word : String)
  | identifierAfterNumber
  | misplacedSeparator
  | legacyOctalLiteral
  | legacyDecimal
  | legacyOctal
  | legacyComment
  | conflictMarker
  | unterminatedComment
  | unterminatedRegex
  | unterminatedString
  | unterminatedTemplate
  | regexFlags
  | repeatedRegexFlag (flag : Char)
  | spaceAfterHash
  | reservedIdentifier (name : String)
  | reservedInAsync
  | boundEval
  | fieldArguments
  | reservedShorthand
  | repeatedLabel (label : String)
  | requiredAfterOptional
  | interfaceName
  | repeatedExtends
  | repeatedImplements
  | severalBases
  | heritageExpression
  | privateMember
  | numericEnumMember
  | computedEnumMember
  | computedList
  | indexParameters
  | setterRequired
  | typeModifier (name : String)
  | varianceModifier (name : String)
  | constantModifier
  | repeatedModifier (name : String)
  | modifierOrder (first second : String)
  | modifierClash (first second : String)
  | constructorModifier (name : String)
  | privateModifier (name : String)
  | privateAccess
  | abstractModifier
  | asyncModifier
  | declaredElement
  | nestedDeclare
  | misplacedModifiers
  | overrideWithoutBase
  | className
  | privateConstructor
  | constructorProperty
  | constructorAccessor
  | constructorGenerator
  | asyncConstructor
  | repeatedConstructor
  | constructorType
  | constructorTypeParameter
  | abstractOutside
  | abstractBody
  | abstractInitializer
  | readonlyAccessor
  | readonlyMethod
  | setterParameter
  | getterParameter
  | setterRest
  | parameterProperty
  | patternProperty
  | declaredInitializer
  | declaredBody
  | lateStrictness
  | yieldParameter
  | awaitParameter
  | notAPattern
  | restNotLast
  | restParameterNotLast
  | restInitializer
  | restWithoutName
  | optionalRest
  | commaAfterRest
  | optionalInitializer
  | optionalPattern
  | typeAfterDefault
  | emptyParentheses
  | spreadInParentheses
  | lineBreakBeforeArrow
  | arrowNotAllowed
  | shorthandAssignment
  | optionalProperty
  | notAssignable
  | invalidTarget
  | refusedTarget
  | deletedIdentifier
  | deletedOperand
  | unaryPower
  | mixedCoalescing
  | awaitInFunction
  | awaitStar
  | newTarget
  | newOfChain
  | taggedChain
  | invalidSuper
  | invalidSuperCall
  | optionalSuperCall
  | privateSuper
  | assertedKeyword (word : String)
  | importPlacement
  | returnOutside
  | withStatement
  | breakOutside
  | breakTarget
  | continueTarget
  | crossedFunction
  | labelledFunction
  | lineBreakInThrow
  | repeatedDefault
  | trailingComma
  | constInitializer
  | patternInitializer
  | usingInitializer
  | usingName
  | usingInHead
  | emptyDeclaration
  | severalInHead
  | initializedHead
  | typedHead
  | patternHead
  | asyncHead
  | awaitHead
  | declarationNotAllowed
  | nestedModuleItem
  | reservedImport
  | importedString (value : String)
  | exportedString
  | exportedReserved (name : String)
  | typedImportName
  | typedExportName
  deriving DecidableEq, Repr, Inhabited

def Cause.message : Cause → String
  | .expected token found => "Expected '" ++ token ++ "', got '" ++ found ++ "'"
  | .unexpected found options => "Unexpected token `" ++ found ++ "`. Expected " ++ options
  | .unexpectedCharacter shown => "Unexpected character " ++ shown
  | .endOfText => "Unexpected eof"
  | .expectedExpression => "Expression expected"
  | .expectedIdentifierWord => "Expected ident"
  | .expectedIdentifier => "Expected an identifier"
  | .expectedSemicolon => "Expected a semicolon"
  | .expectedStatementEnd => "Expected ';', '\x7d' or <eof>"
  | .expectedDigit radix =>
    match radix with
    | 2 => "Expected a binary digit"
    | 8 => "Expected an octal digit"
    | 16 => "Expected a hexadecimal digit"
    | _ => "Expected a decimal digit"
  | .expectedExponent => "Expected +, - or decimal digit after e"
  | .expectedUnicodeEscape => "Expected unicode escape"
  | .expectedStringLiteral => "String literal expected"
  | .badEscape wanted => "Bad character escape sequence, expected " ++ wanted
  | .invalidUnicodeEscape => "Invalid unicode escape"
  | .invalidStringEscape => "Invalid string escape"
  | .invalidIdentifierCharacter => "Invalid character in identifier"
  | .escapedReservedWord word => "Unexpected escape sequence in reserved word: " ++ word
  | .identifierAfterNumber => "Identifier cannot follow number"
  | .misplacedSeparator => "A numeric separator is only allowed between two digits"
  | .legacyOctalLiteral =>
    "Legacy octal literals are not available when targeting ECMAScript 5 and higher"
  | .legacyDecimal => "Legacy decimal escape is not permitted in strict mode"
  | .legacyOctal => "Legacy octal escape is not permitted in strict mode"
  | .legacyComment => "Legacy comments cannot be used in module code"
  | .conflictMarker => "Merge conflict marker encountered."
  | .unterminatedComment => "Unterminated block comment"
  | .unterminatedRegex => "Unterminated regexp literal"
  | .unterminatedString => "Unterminated string constant"
  | .unterminatedTemplate => "Unterminated template"
  | .regexFlags => "Unknown regular expression flags."
  | .repeatedRegexFlag flag => "Duplicated regular expression flag '" ++ flag.toString ++ "'."
  | .spaceAfterHash => "Unexpected space between # and identifier"
  | .reservedIdentifier name => "`" ++ name ++ "` cannot be used as an identifier in strict mode"
  | .reservedInAsync => "`await` cannot be used as an identifier in an async context"
  | .boundEval => "'eval' and 'arguments' cannot be used as a binding identifier in strict mode"
  | .fieldArguments => "'arguments' is only allowed in functions and class methods"
  | .reservedShorthand => "Cannot use a reserved word as a shorthand property"
  | .repeatedLabel label => "Label " ++ label ++ " is already declared"
  | .requiredAfterOptional => "A required element cannot follow an optional element."
  | .interfaceName => "interface name is invalid"
  | .repeatedExtends => "`extends` clause already seen."
  | .repeatedImplements => "`implements` clause already seen"
  | .severalBases => "Classes can only extend a single class"
  | .heritageExpression =>
    "An interface can only extend an identifier/qualified-name with optional type arguments."
  | .privateMember => "private names are not allowed in interface"
  | .numericEnumMember => "An enum member cannot have a numeric name"
  | .computedEnumMember => "Computed property names are not allowed in enums"
  | .computedList => "A comma expression is not allowed in a computed property name"
  | .indexParameters => "An index signature must have exactly one parameter"
  | .setterRequired => "Setter should have exactly one parameter"
  | .typeModifier name => "'" ++ name ++ "' modifier cannot appear on a type parameter"
  | .varianceModifier name =>
    "'" ++ name ++ "' modifier can only appear on a type parameter of a class, interface or " ++
      "type alias"
  | .constantModifier =>
    "'const' modifier can only appear on a type parameter of a function, method or class"
  | .repeatedModifier name => "'" ++ name ++ "' modifier already seen."
  | .modifierOrder first second =>
    "'" ++ first ++ "' modifier must precede '" ++ second ++ "' modifier."
  | .modifierClash first second =>
    "'" ++ first ++ "' modifier cannot be used with '" ++ second ++ "' modifier."
  | .constructorModifier name =>
    "'" ++ name ++ "' modifier cannot appear on a constructor declaration"
  | .privateModifier name => "'" ++ name ++ "' modifier cannot be used with a private identifier"
  | .privateAccess => "An accessibility modifier cannot be used with a private identifier."
  | .abstractModifier => "`abstract` modifier can only appear on a class or method declaration"
  | .asyncModifier => "`async` modifier cannot be used here"
  | .declaredElement => "`declare` modifier cannot appear on class elements of this kind"
  | .nestedDeclare => "`declare` modifier not allowed for code already in an ambient context"
  | .misplacedModifiers => "Modifiers cannot appear here"
  | .overrideWithoutBase =>
    "This member cannot have an 'override' modifier because its containing class does not " ++
      "extend another class."
  | .className => "Invalid class name"
  | .privateConstructor => "Classes can't have a private field named '#constructor'."
  | .constructorProperty => "Classes may not have a non-static field named 'constructor'"
  | .constructorAccessor => "Class constructor can't be an accessor."
  | .constructorGenerator => "A constructor cannot be generator"
  | .asyncConstructor => "Constructor can't be an async function"
  | .repeatedConstructor => "A class can only have one constructor"
  | .constructorType => "Type annotation cannot appear on a constructor declaration"
  | .constructorTypeParameter => "Type parameters cannot appear on a constructor declaration"
  | .abstractOutside => "Abstract methods can only appear within an abstract class."
  | .abstractBody => "Abstract method cannot have an implementation."
  | .abstractInitializer => "Abstract property cannot have an initializer."
  | .readonlyAccessor => "A getter or a setter cannot be readonly"
  | .readonlyMethod => "A method cannot be readonly"
  | .setterParameter => "A `set` accessor must have exactly one parameter"
  | .getterParameter => "A `get` accessor cannot have parameters"
  | .setterRest => "Rest pattern is not allowed in setter"
  | .parameterProperty => "A parameter property is only allowed in a constructor implementation"
  | .patternProperty => "Typescript parameter property must be an identifier or assignment pattern"
  | .declaredInitializer =>
    "A parameter initializer is only allowed in a function or constructor implementation"
  | .declaredBody => "An implementation cannot be declared in ambient contexts"
  | .lateStrictness =>
    "Illegal 'use strict' directive in function with non-simple parameter list."
  | .yieldParameter => "'yield' cannot be used as a parameter within generator"
  | .awaitParameter => "`await` expressions cannot be used in a parameter initializer."
  | .notAPattern => "Not a pattern"
  | .restNotLast => "Rest element must be final element"
  | .restParameterNotLast => "A rest parameter must be last in a parameter list"
  | .restInitializer => "A rest parameter cannot have an initializer"
  | .restWithoutName => "`...` must be followed by an identifier in declaration contexts"
  | .optionalRest => "A rest parameter cannot be optional"
  | .commaAfterRest => "Trailing comma isn't permitted after a rest element"
  | .optionalInitializer => "Parameter cannot have question mark and initializer"
  | .optionalPattern =>
    "A binding pattern parameter cannot be optional in an implementation signature."
  | .typeAfterDefault => "Type annotations must come before default assignments"
  | .emptyParentheses => "Parenthesized expression cannot be empty"
  | .spreadInParentheses => "Parenthesized expression cannot contain spread operator"
  | .lineBreakBeforeArrow => "Unexpected line break between arrow head and arrow"
  | .arrowNotAllowed => "An arrow function is not allowed here"
  | .shorthandAssignment => "assignment property is invalid syntax"
  | .optionalProperty => "An object member cannot be declared optional"
  | .notAssignable => "Cannot assign to this"
  | .invalidTarget => "Invalid assignment target"
  | .refusedTarget =>
    "The left-hand side of an assignment expression must be a variable or a property access."
  | .deletedIdentifier => "'delete' cannot be called on an identifier in strict mode"
  | .deletedOperand => "The operand of a delete operator must be a property reference."
  | .unaryPower => "'**' cannot be applied to unary/await expression."
  | .mixedCoalescing =>
    "Nullish coalescing operator(??) requires parens when mixing with logical operators"
  | .awaitInFunction => "await isn't allowed in non-async function"
  | .awaitStar =>
    "await* has been removed from the async functions proposal. Use Promise.all() instead."
  | .newTarget =>
    "'new.target' is only allowed in the body of a function declaration, function expression, " ++
      "or class."
  | .newOfChain => "Constructor in/after an optional chaining is not allowed."
  | .taggedChain => "Tagged template literal is not allowed in optional chain."
  | .invalidSuper => "Invalid access to super"
  | .invalidSuperCall => "Invalid `super()`"
  | .optionalSuperCall => "Super call cannot be optional"
  | .privateSuper => "Index super with private name is not allowed"
  | .assertedKeyword word =>
    "Typescript non-null assertion operator is not allowed with '" ++ word ++ "'"
  | .importPlacement => "Import is not allowed here"
  | .returnOutside => "Return statement is not allowed here"
  | .withStatement =>
    "The 'with' statement is not supported. All symbols in a 'with' block will have type 'any'."
  | .breakOutside =>
    "A 'break' statement can only be used within an enclosing iteration or switch statement"
  | .breakTarget => "A 'break' statement can only jump to a label of an enclosing statement"
  | .continueTarget =>
    "A 'continue' statement can only jump to a label of an enclosing iteration statement"
  | .crossedFunction => "Jump target cannot cross function boundary"
  | .labelledFunction => "Function cannot be labelled in strict mode"
  | .lineBreakInThrow => "LineBreak cannot follow 'throw'"
  | .repeatedDefault => "A switch block cannot have multiple defaults"
  | .trailingComma => "Trailing comma is not allowed"
  | .constInitializer => "'const' declarations must be initialized"
  | .patternInitializer => "Destructuring bindings require initializers"
  | .usingInitializer => "Using declaration requires initializer"
  | .usingName => "Using declaration only allows identifiers"
  | .usingInHead => "Using declaration is not allowed in for-in loop"
  | .emptyDeclaration => "Variable declaration list cannot be empty"
  | .severalInHead => "Expected one variable binding"
  | .initializedHead => "Unexpected initializer in for in/of loop"
  | .typedHead => "The left-hand side of a 'for...of' statement cannot use a type annotation"
  | .patternHead => "The left-hand side of a 'for...in' statement cannot be a destructuring pattern"
  | .asyncHead => "The left-hand side of a `for...of` statement may not be `async`"
  | .awaitHead => "for await syntax is valid only for for-of statement"
  | .declarationNotAllowed => "Declaration is not allowed"
  | .nestedModuleItem => "'import', and 'export' cannot be used outside of module code"
  | .reservedImport => "cannot import as reserved word"
  | .importedString value =>
    "A string literal cannot be used as an imported binding.\n- Did you mean `import \x7b \"" ++
      value ++ "\" as foo \x7d`?"
  | .exportedString => "A string literal cannot be used as an exported binding without `from`."
  | .exportedReserved name => "`" ++ name ++ "` cannot be used without `from` clause"
  | .typedImportName =>
    "The 'type' modifier cannot be used on a named import when 'import type' is used on its " ++
      "import statement."
  | .typedExportName =>
    "The 'type' modifier cannot be used on a named export when 'export type' is used on its " ++
      "export statement."

/-- A cause, and where in the text it lies. -/
structure Fault where
  cause : Cause
  place : Nat
  deriving DecidableEq, Repr, Inhabited

end Declutter.Syntax
